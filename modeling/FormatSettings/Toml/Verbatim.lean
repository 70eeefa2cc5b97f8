import FormatSettings.Toml.Written

/-!
Documents kept as they are written: an entry has, beside its key and value, all blanks and comments
around it.
-/

namespace FormatSettings.Toml.Verbatim

structure Margin where
  indent : List Char := []
  gap : List Char := []
  comment : List Char := []
  ending : List Char := ['\n']
  deriving Repr, DecidableEq

namespace Margin

def close (m : Margin) : List Char :=
  m.gap ++ m.comment ++ m.ending

def breaksAfter (m : Margin) : Bool :=
  m.ending.contains '\n'

def breaksBefore (m : Margin) : Bool :=
  m.indent.contains '\n'

def spaces (m : Margin) : List Char :=
  (m.indent.dropWhile (· != ' ')).takeWhile (· == ' ')

def shift (spaces : List Char) (m : Margin) : Margin :=
  { m with indent :=
      m.indent.takeWhile (· != ' ') ++ spaces ++ m.indent.dropWhile (· != ' ') }

def withBreakBefore (m : Margin) : Margin :=
  if m.breaksBefore then m else { m with indent := '\n' :: m.indent }

def withBreakAfter (m : Margin) : Margin :=
  if m.breaksAfter then m else { m with ending := m.ending ++ ['\n'] }

end Margin

/-- A key, its text, and what stands between it and its value. A dotted key is followed by a further
key. -/
structure Key where
  name : String
  text : List Char
  separator : List Char
  isDotted : Bool
  deriving Repr, DecidableEq

def escapeInKey (c : Char) : List Char :=
  if c == '"' then ['\\', '"']
  else if c == '\\' then ['\\', '\\']
  else if c == '\x08' then ['\\', 'b']
  else if c == '\t' then ['\\', 't']
  else if c == '\n' then ['\\', 'n']
  else if c == '\x0c' then ['\\', 'f']
  else if c == '\r' then ['\\', 'r']
  else if c.toNat < 32 || c.toNat == 127 then '\\' :: 'u' :: Text.hex 4 c.toNat
  else [c]

namespace Key

def ofName (name : String) : Key where
  name := name
  text :=
    let cs := name.toList
    if isBareKeyText cs then cs else '"' :: cs.flatMap escapeInKey ++ ['"']
  separator := [' ', '=', ' ']
  isDotted := false

end Key

inductive Form
  | flag
  | braces
  | other
  deriving Repr, DecidableEq

/-- How a table was opened. A table is passed if only the headers of tables below it name it, or a
dotted key. An item belongs to an array of tables. -/
structure Head where
  margin : Margin
  path? : Option (List Char)
  isItem : Bool
  isPassed : Bool
  deriving Repr, DecidableEq

namespace Head

def passed : Head := ⟨{}, none, false, true⟩

def opened : Head := ⟨{}, none, false, false⟩

end Head

inductive Entry
  | blank (text : List Char)
  | note (margin : Margin)
  | value (key : Key) (margin : Margin) (form : Form) (text : List Char)
  | table (key : Key) (head : Head) (entries : List Entry)
  | tables (key : Key) (margin : Margin) (items : List (Head × List Entry))

namespace Entry

def key? : Entry → Option Key
  | .blank _ => none
  | .note _ => none
  | .value key _ _ _ => some key
  | .table key _ _ => some key
  | .tables key _ _ => some key

def named (name : String) (e : Entry) : Bool :=
  e.key?.any (·.name == name)

def withKey (key : Key) : Entry → Entry
  | .value _ margin form text => .value key margin form text
  | .table _ head entries => .table key head entries
  | .tables _ margin items => .tables key margin items
  | e => e

def shift (spaces : List Char) : Entry → Entry
  | .value key margin form text => .value key (margin.shift spaces) form text
  | .table key head entries => .table key { head with margin := head.margin.shift spaces } entries
  | e => e

def isBlank : Entry → Bool
  | .blank _ => true
  | _ => false

def holdsTables : Entry → Bool
  | .table _ _ _ => true
  | .tables _ _ _ => true
  | _ => false

def ofPath : List Key → (Key → Entry) → Option Entry
  | [], _ => none
  | [key], last => some (last key)
  | key :: path, last =>
    (ofPath path last).map fun e => .table { key with isDotted := true } Head.passed [e]

end Entry

mutual

def Entry.height : Entry → Nat
  | .table _ _ entries => heightOf entries + 1
  | _ => 0

def heightOf : List Entry → Nat
  | [] => 0
  | e :: rest => max e.height (heightOf rest)

end

def names (entries : List Entry) : List String :=
  (entries.filterMap fun e => e.key?.map (·.name)).eraseDups

def lastNamed? (name : String) (entries : List Entry) : Option Entry :=
  entries.reverse.find? (·.named name)

/-- A table stands at several places. -/
def isScattered (name : String) (entries : List Entry) : Bool :=
  2 ≤ (entries.filter (·.named name)).length

/-- What the places of a scattered table hold, one after the other. -/
def gathered (name : String) (entries : List Entry) : List Entry :=
  entries.flatMap fun
    | .table key _ inner => if key.name == name then inner else []
    | _ => []

def replaceFirst (name : String) (e : Entry) : List Entry → List Entry
  | [] => []
  | d :: rest => if d.named name then e :: rest else d :: replaceFirst name e rest

def replaceLast (name : String) (e : Entry) (entries : List Entry) : List Entry :=
  (replaceFirst name e entries.reverse).reverse

end FormatSettings.Toml.Verbatim
