import FormatSettings.Binary64.Rounded
import FormatSettings.Failure
import FormatSettings.Log.Place
import FormatSettings.Value.Same

namespace FormatSettings.Log

inductive Conversion
  | text
  | shown
  | ascii
  | character
  | decimal
  | octal
  | hexadecimal (isUpper : Bool)
  | float (form : Binary64.Form) (isUpper : Bool)
  deriving Repr, DecidableEq

namespace Conversion

def ofChar? : Char → Option Conversion
  | 's' => some .text
  | 'r' => some .shown
  | 'a' => some .ascii
  | 'c' => some .character
  | 'd' => some .decimal
  | 'i' => some .decimal
  | 'u' => some .decimal
  | 'o' => some .octal
  | 'x' => some (.hexadecimal false)
  | 'X' => some (.hexadecimal true)
  | 'e' => some (.float .scientific false)
  | 'E' => some (.float .scientific true)
  | 'f' => some (.float .fixed false)
  | 'F' => some (.float .fixed true)
  | 'g' => some (.float .general false)
  | 'G' => some (.float .general true)
  | _ => none

def isNumber : Conversion → Bool
  | .decimal => true
  | .octal => true
  | .hexadecimal _ => true
  | .float _ _ => true
  | _ => false

def isText : Conversion → Bool
  | .text => true
  | .shown => true
  | .ascii => true
  | _ => false

def baseMark? : Conversion → Option Char
  | .octal => some 'o'
  | .hexadecimal isUpper => some (if isUpper then 'X' else 'x')
  | _ => none

end Conversion

def escapeBeyondAscii (c : Char) : List Char :=
  if c.toNat < 0x80 then [c]
  else if c.toNat < 0x100 then '\\' :: 'x' :: Text.hex 2 c.toNat
  else if c.toNat < 0x10000 then '\\' :: 'u' :: Text.hex 4 c.toNat
  else '\\' :: 'U' :: Text.hex 8 c.toNat

def numberOf (letter : Char) (v : Value) : Except PatternFault Number :=
  match v.asNumber? with
  | some x => .ok x
  | none => .error (.wrongKind letter v)

def integerPart (v : Value) : Number → Except PatternFault Int
  | .int i => .ok i
  | .float x => match x.truncate?, x with
    | some i, _ => .ok i
    | none, .nan => .error .notANumber
    | none, _ => .error (.outOfRange v)

def wholeNumber (letter : Char) (v : Value) : Number → Except PatternFault Int
  | .int i => .ok i
  | .float _ => .error (.wrongKind letter v)

def nearestFloat (v : Value) : Number → Except PatternFault Binary64
  | .float x => .ok x
  | .int i => match Binary64.ofInt? i with
    | some x => .ok x
    | none => .error (.outOfRange v)

def characterOf (v : Value) : Except PatternFault Char :=
  match v.asText? with
  | some s => match s.toList with
    | [c] => .ok c
    | _ => .error (.wrongKind 'c' v)
  | none => do
    let i ← wholeNumber 'c' v (← numberOf 'c' v)
    if 0 ≤ i && i < 0x110000 then return Char.ofNat i.toNat else throw (.outOfRange v)

def signedDigits (i : Int) (precision : Option Nat) (digits : List Char) : List Char :=
  (if i < 0 then ['-'] else []) ++
    List.replicate (precision.getD 0 - digits.length) '0' ++ digits

def defaultPrecision : Nat := 6

def upperIf (isUpper : Bool) (cs : List Char) : List Char :=
  if isUpper then cs.map Char.toUpper else cs

def convert (c : Conversion) (letter : Char) (isAlternate : Bool) (precision : Option Nat)
    (v : Value) : Except PatternFault (List Char) := do
  match c with
  | .text => return v.tokenText.toList
  | .shown => return v.shown.toList
  | .ascii => return v.shown.toList.flatMap escapeBeyondAscii
  | .character => return [← characterOf v]
  | .decimal =>
    let i ← integerPart v (← numberOf letter v)
    return signedDigits i precision (Text.decimal i.natAbs)
  | .octal =>
    let i ← wholeNumber letter v (← numberOf letter v)
    return signedDigits i precision (Nat.toDigits 8 i.natAbs)
  | .hexadecimal isUpper =>
    let i ← wholeNumber letter v (← numberOf letter v)
    return upperIf isUpper (signedDigits i precision (Nat.toDigits 16 i.natAbs))
  | .float form isUpper =>
    let x ← nearestFloat v (← numberOf letter v)
    return upperIf isUpper (x.rounded form isAlternate (precision.getD defaultPrecision))

def splitSign (flags : List Flag) (cs : List Char) : List Char × List Char :=
  match cs with
  | '-' :: rest => (['-'], rest)
  | cs =>
    (if flags.contains .signed then ['+'] else if flags.contains .spaced then [' '] else [], cs)

def align (c : Conversion) (flags : List Flag) (width : Nat) (cs : List Char) : List Char :=
  let (sign, digits) := if c.isNumber then splitSign flags cs else ([], cs)
  let mark := match c.baseMark?, flags.contains .alternate with
    | some m, true => ['0', m]
    | _, _ => []
  let front := sign ++ mark
  let missing := width - (front.length + digits.length)
  if flags.contains .leftAligned then front ++ digits ++ List.replicate missing ' '
  else if c.isNumber && flags.contains .zeroFilled then
    front ++ List.replicate missing '0' ++ digits
  else List.replicate missing ' ' ++ front ++ digits

def fillPlace (letter : Char) (c : Conversion) (flags : List Flag) (width precision : Option Nat)
    (v : Value) : Except PatternFault (List Char) := do
  let cs ← convert c letter (flags.contains .alternate) precision v
  let kept := if c.isText then cs.take (precision.getD cs.length) else cs
  return align c flags (width.getD 0) kept

end FormatSettings.Log
