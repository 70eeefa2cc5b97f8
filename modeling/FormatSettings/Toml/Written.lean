import FormatSettings.Failure
import FormatSettings.Toml.BareKey

namespace FormatSettings.Toml

def writeChar (c : Char) : List Char :=
  if c == '"' then ['\\', '"'] else Text.escapeChar '\\' c

def splitEscapes : List Char → List Char × List (List Char)
  | [] => ([], [])
  | '\\' :: 'x' :: rest =>
    let (part, parts) := splitEscapes rest
    ([], part :: parts)
  | c :: rest =>
    let (part, parts) := splitEscapes rest
    (c :: part, parts)

def halveBackslashes : List Char → List Char
  | '\\' :: '\\' :: rest => '\\' :: halveBackslashes rest
  | c :: rest => c :: halveBackslashes rest
  | [] => []

def endsUnescaped (cs : List Char) : Bool :=
  let count := (cs.reverse.takeWhile (· == '\\')).length
  if count == 0 then true
  else if count == cs.length then (count - 1) % 2 == 1
  else count % 2 == 1

def joinEscapes : List Char → List (List Char) → Except Failure (List Char)
  | part, [] => .ok part
  | [], [_] => .error .looseEscape
  | [], part :: next :: parts => joinPair part next parts
  | part, next :: parts => joinPair part next parts
where
  joinPair (part next : List Char) (parts : List (List Char)) : Except Failure (List Char) :=
    let part := halveBackslashes part
    if part.isEmpty then .error .looseEscape
    else
      let joiner := if endsUnescaped part then ['x'] else ['u', '0', '0']
      joinEscapes (part ++ joiner ++ next) parts

def writeEscaped (cs : List Char) : Except Failure (List Char) :=
  let (part, parts) := splitEscapes cs
  (joinEscapes part parts).map fun body => '"' :: body ++ ['"']

def writeText (s : String) : Except Failure (List Char) :=
  writeEscaped (s.toList.flatMap writeChar)

def writeKey (key : String) : Except Failure (List Char) :=
  let cs := key.toList
  let body := if cs.getLast? == some '\n' then cs.dropLast else cs
  if isBareKeyText body then .ok cs else writeText key

def trimExponent : List Char → List Char
  | 'e' :: sign :: '0' :: rest =>
    if sign == '+' || sign == '-' then 'e' :: sign :: rest
    else 'e' :: sign :: '0' :: rest
  | c :: rest => c :: trimExponent rest
  | [] => []

def padded (width n : Nat) : List Char :=
  let digits := Text.decimal n
  List.replicate (width - digits.length) '0' ++ digits

def writeDate (d : Date) : List Char :=
  padded 4 d.year ++ '-' :: padded 2 d.month ++ '-' :: padded 2 d.day

def writeClock (t : Clock) : List Char :=
  let fraction := if t.microsecond == 0 then [] else '.' :: padded 6 t.microsecond
  padded 2 t.hour ++ ':' :: padded 2 t.minute ++ ':' :: padded 2 t.second ++ fraction

def writeOffset (minutes : Int) : List Char :=
  if minutes == 0 then ['Z']
  else
    let n := minutes.natAbs
    (if minutes < 0 then '-' else '+') :: padded 2 (n / 60) ++ ':' :: padded 2 (n % 60)

def writeMoment : Moment → List Char
  | .date d => writeDate d
  | .time t => writeClock t
  | .dateTime d t none => writeDate d ++ 'T' :: writeClock t
  | .dateTime d t (some offset) => writeDate d ++ 'T' :: writeClock t ++ writeOffset offset

def writeInt (i : Int) : Except Failure (List Char) :=
  if Text.withinDigitLimit i then .ok (Text.decimalInt i) else .error (.value .integerTooLong)

def writeArray (items : List (List Char)) : List Char :=
  '[' :: (items.flatMap fun item => ' ' :: item ++ [',']) ++ [']']

def writeTexts (texts : List String) : Except Failure (List Char) :=
  (texts.mapM writeText).map writeArray

def writeShown (shown : String) : Except Failure (List Char) :=
  writeEscaped (shown.toList)

mutual

def writeValue : Value → Except Failure (List Char)
  | .bool b => .ok (if b then ['t', 'r', 'u', 'e'] else ['f', 'a', 'l', 's', 'e'])
  | .int i => writeInt i
  | .float x => .ok (trimExponent x.toChars)
  | .text s => writeText s
  | .moment m => .ok (writeMoment m)
  | .list vs => (writeItems vs).map writeArray
  | .tuple vs => (writeItems vs).map writeArray
  | .set _ vs => (writeItems vs).map writeArray
  | .table entries => writeTexts (entries.map (·.1))
  | .fix f => writeTexts (f.key.toList.map fun c => String.ofList [c])
  | .lineEnding e => writeTexts (e.newline.toList.map fun c => String.ofList [c])
  | .null => writeShown Value.null.shown
  | .profile p => writeShown p.shown
  | .widths w => writeShown w.shown
  | .style s => writeShown s.shown
  | .path s => writeShown (showPath s)
  | .record name fields => writeShown (Value.record name fields).shown

def writeItems : List Value → Except Failure (List (List Char))
  | [] => .ok []
  | v :: vs => do
    let item ← writeValue v
    return item :: (← writeItems vs)

end

end FormatSettings.Toml
