import FormatSettings.Binary64.Text
import FormatSettings.Text.Numeral
import FormatSettings.Value

namespace FormatSettings.Toml

def readGrouped? (cs : List Char) : Option (List Char) :=
  Text.ungroup Char.isDigit cs

def readWhole? (cs : List Char) : Option (List Char) :=
  match readGrouped? cs with
  | some ('0' :: _ :: _) => none
  | digits => digits

def splitSign : List Char → Bool × List Char
  | '-' :: rest => (true, rest)
  | '+' :: rest => (false, rest)
  | cs => (false, cs)

def readDecimalInt? (cs : List Char) : Option Int :=
  let (isNegative, rest) := splitSign cs
  (readWhole? rest).bind fun digits =>
    if digits.length > Text.digitLimit then none
    else
      let n := Binary64.digitsNat digits
      some (if isNegative then -Int.ofNat n else Int.ofNat n)

def digitOfBase (base : Nat) (c : Char) : Bool :=
  if base == 16 then c.isDigit || ('a' ≤ c && c ≤ 'f') || ('A' ≤ c && c ≤ 'F')
  else c.isDigit && c.toNat < 48 + base

def digitNumber (c : Char) : Nat :=
  if c.isDigit then c.toNat - 48 else c.toLower.toNat - 87

def readBaseInt? (base : Nat) (cs : List Char) : Option Int :=
  (Text.ungroup (digitOfBase base) cs).map fun digits =>
    Int.ofNat (digits.foldl (fun n c => base * n + digitNumber c) 0)

def readInt? : List Char → Option Int
  | '0' :: 'x' :: rest => readBaseInt? 16 rest
  | '0' :: 'o' :: rest => readBaseInt? 8 rest
  | '0' :: 'b' :: rest => readBaseInt? 2 rest
  | cs => readDecimalInt? cs

def isGroupedDigit (c : Char) : Bool :=
  c.isDigit || c == '_'

def readExponentPart? (cs : List Char) : Option (List Char) :=
  match cs with
  | '-' :: rest => (readGrouped? rest).map ('-' :: ·)
  | '+' :: rest => readGrouped? rest
  | rest => readGrouped? rest

def cleanFloat? (cs : List Char) : Option (List Char) :=
  let whole := cs.takeWhile isGroupedDigit
  let rest := cs.dropWhile isGroupedDigit
  (readWhole? whole).bind fun digits =>
    match rest with
    | '.' :: more =>
      let fraction := more.takeWhile isGroupedDigit
      let after := more.dropWhile isGroupedDigit
      (readGrouped? fraction).bind fun f =>
        match after with
        | [] => some (digits ++ '.' :: f)
        | c :: e =>
          if c == 'e' || c == 'E' then
            (readExponentPart? e).map fun e => digits ++ '.' :: f ++ 'e' :: e
          else none
    | c :: e =>
      if c == 'e' || c == 'E' then (readExponentPart? e).map fun e => digits ++ 'e' :: e else none
    | [] => none

def readFloat? (cs : List Char) : Option Binary64 :=
  let (isNegative, rest) := splitSign cs
  if rest == ['i', 'n', 'f'] then some (.infinite isNegative)
  else if rest == ['n', 'a', 'n'] then some .nan
  else (cleanFloat? rest).bind (Binary64.readMagnitude? isNegative)

def readDigits? (count : Nat) (cs : List Char) : Option (Nat × List Char) :=
  let digits := cs.take count
  if digits.length == count && digits.all Char.isDigit then
    some (Binary64.digitsNat digits, cs.drop count)
  else none

def skipChar? (c : Char) : List Char → Option (List Char)
  | [] => none
  | d :: rest => if d == c then some rest else none

def readDate? (cs : List Char) : Option (Date × List Char) := do
  let (year, cs) ← readDigits? 4 cs
  let cs ← skipChar? '-' cs
  let (month, cs) ← readDigits? 2 cs
  let cs ← skipChar? '-' cs
  let (day, cs) ← readDigits? 2 cs
  let d : Date := ⟨year, month, day⟩
  if d.valid then some (d, cs) else none

def readFraction? : List Char → Option (Nat × List Char)
  | '.' :: rest =>
    let digits := rest.takeWhile Char.isDigit
    if digits.isEmpty then none
    else
      let six := (digits ++ List.replicate 6 '0').take 6
      some (Binary64.digitsNat six, rest.dropWhile Char.isDigit)
  | cs => some (0, cs)

def readClock? (cs : List Char) : Option (Clock × List Char) := do
  let (hour, cs) ← readDigits? 2 cs
  let cs ← skipChar? ':' cs
  let (minute, cs) ← readDigits? 2 cs
  let cs ← skipChar? ':' cs
  let (second, cs) ← readDigits? 2 cs
  let (micro, cs) ← readFraction? cs
  let t : Clock := ⟨hour, minute, second, micro⟩
  if t.valid then some (t, cs) else none

def readOffset? (cs : List Char) : Option (Option Int) := do
  match cs with
  | [] => some none
  | c :: rest =>
    if (c == 'Z' || c == 'z') && rest.isEmpty then some (some 0)
    else if c == '+' || c == '-' then
      let (hour, rest) ← readDigits? 2 rest
      let rest ← skipChar? ':' rest
      let (minute, rest) ← readDigits? 2 rest
      if rest.isEmpty && hour < 24 && minute < 60 then
        let n := Int.ofNat (60 * hour + minute)
        some (some (if c == '-' then -n else n))
      else none
    else none

def readMoment? (cs : List Char) : Option Moment :=
  match readDate? cs with
  | some (d, []) => some (.date d)
  | some (d, c :: rest) =>
    if c == 'T' || c == 't' || c == ' ' then do
      let (t, rest) ← readClock? rest
      let offset ← readOffset? rest
      return .dateTime d t offset
    else none
  | none =>
    match readClock? cs with
    | some (t, []) => some (.time t)
    | _ => none

def endsWord (c : Char) : Bool :=
  c == ' ' || c == '\t' || c == '\n' || c == '\r' || c == ',' || c == ']' || c == '\x7d' || c == '#'

def hasClockNext : List Char → Bool
  | ' ' :: a :: b :: ':' :: _ => a.isDigit && b.isDigit
  | _ => false

def takeWord (cs : List Char) : List Char × List Char :=
  let word := cs.takeWhile (!endsWord ·)
  let rest := cs.dropWhile (!endsWord ·)
  if hasClockNext rest && (readDate? word).any (·.2.isEmpty) then
    (word ++ ' ' :: (rest.drop 1).takeWhile (!endsWord ·), (rest.drop 1).dropWhile (!endsWord ·))
  else (word, rest)

def readWord? (word : List Char) : Option Value :=
  if word == ['t', 'r', 'u', 'e'] then some (.bool true)
  else if word == ['f', 'a', 'l', 's', 'e'] then some (.bool false)
  else match readInt? word with
    | some i => some (.int i)
    | none => match readFloat? word with
      | some x => some (.float x)
      | none => (readMoment? word).map .moment

end FormatSettings.Toml
