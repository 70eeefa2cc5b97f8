import FormatSettings.Binary64

namespace FormatSettings.Binary64

def decimalExponent (num den : Nat) : Int :=
  let k : Int := Int.ofNat (Nat.toDigits 10 num).length - Int.ofNat (Nat.toDigits 10 den).length
  let (n, d) := scaled 10 den k
  if n ≤ num * d then k else k - 1

def nearestBack (x : Binary64) (num den q : Nat) (p : Int) : Option Nat :=
  let low := ofDecimal false q p == x
  let high := ofDecimal false (q + 1) p == x
  if low && high then
    some (if 2 * (num % den) < den || (2 * (num % den) == den && q % 2 == 0) then q else q + 1)
  else if low then some q
  else if high then some (q + 1)
  else none

/-- Digits and decimal exponent of a number `x = num / den` above zero, tried from `count` digits
upward with at most `more` further digits. -/
def shortestFrom (x : Binary64) (num den : Nat) (count : Nat) : (more : Nat) → Nat × Int
  | 0 => (0, 0)
  | more + 1 =>
    let p : Int := decimalExponent num den - Int.ofNat count + 1
    let (n, d) := unscale 10 num den p
    match nearestBack x n d (n / d) p with
    | some q => (q, p)
    | none => shortestFrom x num den (count + 1) more

def mostDigits : Nat := 17

def shortest (m : Nat) (e : Int) : Nat × Int :=
  let (num, den) := scaled 2 m e
  shortestFrom (.finite false m e) num den 1 mostDigits

def exponentText (e : Int) : List Char :=
  let digits := Nat.toDigits 10 e.natAbs
  'e' :: (if e < 0 then '-' else '+') :: (List.replicate (2 - digits.length) '0' ++ digits)

def positional (digits : List Char) (point : Int) : List Char :=
  match point with
  | .ofNat 0 => '0' :: '.' :: digits
  | .ofNat k =>
    if digits.length ≤ k then digits ++ List.replicate (k - digits.length) '0' ++ ['.', '0']
    else digits.take k ++ '.' :: digits.drop k
  | .negSucc k => '0' :: '.' :: (List.replicate (k + 1) '0' ++ digits)

def dropTrailingZeros (digits : List Char) : List Char :=
  (digits.reverse.dropWhile (· == '0')).reverse

def magnitudeText (m : Nat) (e : Int) : List Char :=
  if m == 0 then ['0', '.', '0']
  else
    let (q, p) := shortest m e
    let all := Nat.toDigits 10 q
    let point : Int := Int.ofNat all.length + p
    let digits := dropTrailingZeros all
    if -4 < point && point ≤ 16 then positional digits point
    else
      let fraction := match digits.drop 1 with
        | [] => []
        | more => '.' :: more
      digits.take 1 ++ fraction ++ exponentText (point - 1)

def toChars : Binary64 → List Char
  | .nan => ['n', 'a', 'n']
  | .infinite negative => (if negative then ['-'] else []) ++ ['i', 'n', 'f']
  | .finite negative m e => (if negative then ['-'] else []) ++ magnitudeText m e

def toText (x : Binary64) : String :=
  String.ofList x.toChars

def digitsNat (cs : List Char) : Nat :=
  cs.foldl (fun n c => 10 * n + (c.toNat - 48)) 0

def readExponent? (cs : List Char) : Option Int :=
  let read (digits : List Char) : Option Nat :=
    if digits.isEmpty || !digits.all Char.isDigit then none else some (digitsNat digits)
  match cs with
  | '+' :: digits => (read digits).map Int.ofNat
  | '-' :: digits => (read digits).map fun n => -Int.ofNat n
  | digits => (read digits).map Int.ofNat

def readMagnitude? (negative : Bool) (cs : List Char) : Option Binary64 :=
  let whole := cs.takeWhile Char.isDigit
  let rest := cs.dropWhile Char.isDigit
  let (fraction, rest) := match rest with
    | '.' :: more => (more.takeWhile Char.isDigit, more.dropWhile Char.isDigit)
    | _ => ([], rest)
  let digits := digitsNat (whole ++ fraction)
  let shift : Int := -Int.ofNat fraction.length
  if whole.isEmpty then none
  else match rest with
    | [] => some (ofDecimal negative digits shift)
    | c :: more =>
      if c == 'e' || c == 'E' then
        (readExponent? more).map fun e => ofDecimal negative digits (e + shift)
      else none

def ofUnsigned? (negative : Bool) (cs : List Char) : Option Binary64 :=
  if cs == ['i', 'n', 'f'] then some (.infinite negative)
  else if cs == ['n', 'a', 'n'] then some .nan
  else readMagnitude? negative cs

def ofChars? : List Char → Option Binary64
  | '-' :: cs => ofUnsigned? true cs
  | '+' :: cs => ofUnsigned? false cs
  | cs => ofUnsigned? false cs

def ofText? (s : String) : Option Binary64 :=
  ofChars? s.toList

end FormatSettings.Binary64
