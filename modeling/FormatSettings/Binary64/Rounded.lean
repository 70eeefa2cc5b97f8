import FormatSettings.Binary64.Text

namespace FormatSettings.Binary64

inductive Form
  | fixed
  | scientific
  | general
  deriving Repr, DecidableEq

def filledDigits (least n : Nat) : List Char :=
  let digits := Nat.toDigits 10 n
  List.replicate (least - digits.length) '0' ++ digits

def pointed (keepsPoint : Bool) (places : Nat) (digits : List Char) : List Char :=
  let whole := digits.length - places
  digits.take whole ++ if places == 0 && !keepsPoint then [] else '.' :: digits.drop whole

def fixedText (keepsPoint : Bool) (num den places : Nat) : List Char :=
  pointed keepsPoint places (filledDigits (places + 1) (roundDiv (num * Nat.pow 10 places) den))

def leadingDigits (num den count : Nat) : List Char × Int :=
  if num == 0 then (List.replicate count '0', 0)
  else
    let k := decimalExponent num den
    let (n, d) := unscale 10 num den (k + 1 - Int.ofNat count)
    let digits := Nat.toDigits 10 (roundDiv n d)
    if digits.length ≤ count then (digits, k) else (digits.take count, k + 1)

def trimmedPlaces (places : Nat) (digits : List Char) : Nat × List Char :=
  let zeros := min places (digits.reverse.takeWhile (· == '0')).length
  (places - zeros, digits.take (digits.length - zeros))

def scientificText (keepsPoint : Bool) (num den places : Nat) : List Char :=
  let (digits, e) := leadingDigits num den (places + 1)
  pointed keepsPoint places digits ++ exponentText e

def generalText (keepsZeros : Bool) (num den precision : Nat) : List Char :=
  let count := max precision 1
  let (digits, e) := leadingDigits num den count
  let shown (places : Nat) (digits : List Char) : List Char :=
    if keepsZeros then pointed true places digits
    else
      let (places, digits) := trimmedPlaces places digits
      pointed false places digits
  match e with
  | .ofNat k =>
    if k < count then shown (count - 1 - k) digits
    else shown (count - 1) digits ++ exponentText e
  | .negSucc k =>
    if k < 4 then shown (count + k) (List.replicate (k + 1) '0' ++ digits)
    else shown (count - 1) digits ++ exponentText e

def rounded (form : Form) (alternate : Bool) (precision : Nat) : Binary64 → List Char
  | .nan => ['n', 'a', 'n']
  | .infinite negative => (if negative then ['-'] else []) ++ ['i', 'n', 'f']
  | .finite negative m e =>
    let (num, den) := scaled 2 m e
    (if negative then ['-'] else []) ++
      match form with
      | .fixed => fixedText alternate num den precision
      | .scientific => scientificText alternate num den precision
      | .general => generalText alternate num den precision

def truncate? : Binary64 → Option Int
  | .finite negative m e =>
    let (num, den) := scaled 2 m e
    some (if negative then -Int.ofNat (num / den) else Int.ofNat (num / den))
  | _ => none

def ofInt? (i : Int) : Option Binary64 :=
  match ofFraction (i < 0) i.natAbs 1 with
  | .infinite _ => none
  | x => some x

end FormatSettings.Binary64
