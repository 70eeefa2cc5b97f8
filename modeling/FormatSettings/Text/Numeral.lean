import FormatSettings.Text.Blank
import FormatSettings.Text.Digits

namespace FormatSettings.Text

def decimal (n : Nat) : List Char :=
  Nat.toDigits 10 n

def decimalInt : Int → List Char
  | .ofNat n => decimal n
  | .negSucc n => '-' :: decimal (n + 1)

def showNat (n : Nat) : String :=
  String.ofList (decimal n)

def showInt (i : Int) : String :=
  String.ofList (decimalInt i)

def digitLimit : Nat := 4300

def withinDigitLimit (i : Int) : Bool :=
  i.natAbs < Nat.pow 10 digitLimit

def digitsValue (n : Nat) (cs : List Char) : Nat :=
  cs.foldl (fun n c => 10 * n + (digitValue? c).getD 0) n

inductive NumeralFault
  | notDecimal (text : String)
  | tooLong (digits : Nat)
  deriving Repr, DecidableEq

def readDigits (cs : List Char) : Except NumeralFault Nat :=
  let digits := cs.takeWhile fun c => (digitValue? c).isSome
  if digits.length > digitLimit then .error (.tooLong digits.length)
  else if digits.length < cs.length || cs.isEmpty then .error (.notDecimal (String.ofList cs))
  else .ok (digitsValue 0 cs)

def ungroup (isDigit : Char → Bool) : List Char → Option (List Char)
  | [] => none
  | c :: rest =>
    if isDigit c then
      match rest with
      | [] => some [c]
      | '_' :: more => (ungroup isDigit more).map (c :: ·)
      | more => (ungroup isDigit more).map (c :: ·)
    else none

def isIntegerBlank (c : Char) : Bool :=
  isBlank c && !(28 ≤ c.toNat && c.toNat ≤ 31)

def readUnsigned? (cs : List Char) : Option Nat :=
  (ungroup (fun c => (digitValue? c).isSome) cs).bind fun digits =>
    if digits.length > digitLimit then none else some (digitsValue 0 digits)

def readInteger? (cs : List Char) : Option Int :=
  match stripBy isIntegerBlank cs with
  | '+' :: rest => (readUnsigned? rest).map Int.ofNat
  | '-' :: rest => (readUnsigned? rest).map fun n => -Int.ofNat n
  | rest => (readUnsigned? rest).map Int.ofNat

end FormatSettings.Text
