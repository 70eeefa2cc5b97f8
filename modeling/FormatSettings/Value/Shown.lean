import FormatSettings.Binary64.Text
import FormatSettings.Text.Numeral
import FormatSettings.Text.Quoted
import FormatSettings.Value

namespace FormatSettings

open Text (showNat showInt quote)

def showFlag (b : Bool) : String :=
  if b then "True" else "False"

def showRecord (name : String) (fields : List (String × String)) : String :=
  name ++ "(" ++ ", ".intercalate (fields.map fun f => f.1 ++ "=" ++ f.2) ++ ")"

def Profile.shown (p : Profile) : String :=
  "<CodeProfile." ++ p.key ++ ": " ++ showNat p.code ++ ">"

def Fix.shown (f : Fix) : String :=
  "<StyleFix." ++ f.name ++ ": " ++ quote f.key ++ ">"

def LineEnding.shown (e : LineEnding) : String :=
  "<LineEnding." ++ e.name ++ ": " ++ quote e.newline ++ ">"

def Widths.shown (w : Widths) : String :=
  showRecord "CodeIndent"
    [("block", showNat w.block), ("cascade", showNat w.cascade),
     ("expression", showNat w.expression),
     ("constructor_initializer", showNat w.constructorInitializer)]

def Widths.isWritable (w : Widths) : Bool :=
  [w.block, w.cascade, w.expression, w.constructorInitializer].all fun n =>
    Text.withinDigitLimit (.ofNat n)

def Style.shown (s : Style) : String :=
  showRecord "CodeStyle"
    [("outer_braces_on_block_like", showFlag s.bracesOnBlockLike),
     ("outer_braces_on_collection_literals", showFlag s.bracesOnCollectionLiterals),
     ("outer_braces_on_enum", showFlag s.bracesOnEnum),
     ("outer_try_clause_on_newline", showFlag s.tryClauseOnNewline),
     ("outer_if_else_on_newline", showFlag s.ifElseOnNewline)]

def Date.parts (d : Date) : List Nat :=
  [d.year, d.month, d.day]

def Clock.parts (t : Clock) : List Nat :=
  [t.hour, t.minute] ++
    if t.microsecond != 0 then [t.second, t.microsecond]
    else if t.second != 0 then [t.second]
    else []

def Moment.shown (m : Moment) : String :=
  let call (name : String) (parts : List Nat) (more : List String) : String :=
    "datetime." ++ name ++ "(" ++ ", ".intercalate (parts.map showNat ++ more) ++ ")"
  match m with
  | .date d => call "date" d.parts []
  | .time t => call "time" t.parts []
  | .dateTime d t none => call "datetime" (d.parts ++ t.parts) []
  | .dateTime d t (some _) => call "datetime" (d.parts ++ t.parts) ["tzinfo=..."]

def showPath (s : String) : String :=
  "PosixPath(" ++ quote s ++ ")"

def showList (items : List String) : String :=
  "[" ++ ", ".intercalate items ++ "]"

def showTuple : List String → String
  | [item] => "(" ++ item ++ ",)"
  | items => "(" ++ ", ".intercalate items ++ ")"

def openBrace : String := "\x7b"

def closeBrace : String := "\x7d"

def showTable (entries : List (String × String)) : String :=
  openBrace ++ ", ".intercalate (entries.map fun e => quote e.1 ++ ": " ++ e.2) ++ closeBrace

def showSet (isFrozen : Bool) (items : List String) : String :=
  let braced := openBrace ++ ", ".intercalate items ++ closeBrace
  match isFrozen, items with
  | false, [] => "set()"
  | false, _ => braced
  | true, [] => "frozenset()"
  | true, _ => "frozenset(" ++ braced ++ ")"

namespace Value

mutual

def shown : Value → String
  | .null => "None"
  | .bool b => showFlag b
  | .int i => showInt i
  | .float x => x.toText
  | .text s => quote s
  | .moment m => m.shown
  | .profile p => p.shown
  | .fix f => f.shown
  | .lineEnding e => e.shown
  | .widths w => w.shown
  | .style s => s.shown
  | .path s => showPath s
  | .list vs => showList (shownItems vs)
  | .tuple vs => showTuple (shownItems vs)
  | .set isFrozen vs => showSet isFrozen (shownItems vs)
  | .table entries => showTable (shownEntries entries)
  | .record name fields => showRecord name (shownEntries fields)

def shownItems : List Value → List String
  | [] => []
  | v :: vs => v.shown :: shownItems vs

def shownEntries : List (String × Value) → List (String × String)
  | [] => []
  | (k, v) :: rest => (k, v.shown) :: shownEntries rest

end

mutual

/-- A value can be written in a message unless an integer in it has too many digits. -/
def isWritable : Value → Bool
  | .int i => Text.withinDigitLimit i
  | .widths w => w.isWritable
  | .list vs | .tuple vs | .set _ vs => areWritable vs
  | .table entries | .record _ entries => entriesWritable entries
  | _ => true

def areWritable : List Value → Bool
  | [] => true
  | v :: vs => v.isWritable && areWritable vs

def entriesWritable : List (String × Value) → Bool
  | [] => true
  | (_, v) :: rest => v.isWritable && entriesWritable rest

end

mutual

def depth : Value → Nat
  | .list vs | .tuple vs | .set _ vs => depthOfItems vs + 1
  | .table entries | .record _ entries => depthOfEntries entries + 1
  | .widths _ | .style _ => 1
  | _ => 0

def depthOfItems : List Value → Nat
  | [] => 0
  | v :: vs => max v.depth (depthOfItems vs)

def depthOfEntries : List (String × Value) → Nat
  | [] => 0
  | (_, v) :: rest => max v.depth (depthOfEntries rest)

end

/-- The token that a value stands for when it is taken as text: members of closed sets give their
class and name. -/
def tokenText : Value → String
  | .text s => s
  | .profile p => "CodeProfile." ++ p.key
  | .fix f => "StyleFix." ++ f.name
  | .lineEnding e => "LineEnding." ++ e.name
  | .path s => s
  | v => v.shown

end Value

end FormatSettings
