import FormatSettings.Draft
import FormatSettings.Text.Spans

/-!
Settings read from tables. A key that is missing or holds a value of the wrong kind counts as not set;
a value of the wrong kind is reported.
-/

namespace FormatSettings

namespace Value

def isTable : Value → Bool
  | .table _ => true
  | _ => false

def contains? (v : Value) : Option (String → Bool) :=
  match v.asText? with
  | some s => some fun part => Text.occurs part.toList s.toList
  | none => v.elements?.map fun vs part => vs.any (·.same (.text part))

end Value

namespace Table

def entriesOf (index : Nat) : List Value → Except Failure Table
  | [] => .ok []
  | v :: vs => do
    let some parts := v.elements? | throw (.call (.notIterable v))
    let [key, value] := parts | throw (.value (.notAPair index parts.length))
    if !key.isHashable then throw (.call (.notHashable key))
    let rest ← entriesOf (index + 1) vs
    return match key.asText? with
      | some k => rest ++ [(k, value)]
      | none => rest

def ofPairs (v : Value) : Except Failure Table :=
  match v.elements? with
  | some vs => entriesOf 0 vs
  | none => .error (.call (.notIterable v))

def tableAt (t : Table) (key : String) : Table :=
  match t.valueOf key with
  | .table entries => entries
  | _ => []

def listAt (t : Table) (key : String) : List Value :=
  match t.valueOf key with
  | .list vs => vs
  | _ => []

def notFlagText (key : String) (v : Value) : Message :=
  .showing ("Ignoring non-boolean value for '" ++ key ++ "': ") v

def notIntText (key : String) (v : Value) : Message :=
  .showing ("Ignoring non-integer value for '" ++ key ++ "': ") v

def notStyleFlagText (key : String) (v : Value) : Message :=
  .showing ("Ignoring non-boolean style flag '" ++ key ++ "': ") v

def readFlag (t : Table) (key : String) : Report Value :=
  match t.valueOf key with
  | .null => pure .null
  | .bool b => pure (.bool b)
  | v => do
    Report.warn (notFlagText key v)
    return .null

def readInt (t : Table) (key : String) : Report Value :=
  match t.valueOf key with
  | .null => pure .null
  | .int i => pure (.int i)
  | v => do
    Report.warn (notIntText key v)
    return .null

def readStyleFlag (t : Table) (key : String) : Report Value :=
  match t.lookup key with
  | none => pure .null
  | some (.bool b) => pure (.bool b)
  | some v => do
    Report.warn (notStyleFlagText key v)
    return .null

end Table

namespace Widths.Draft

def ofTable (t : Table) : Report Draft := do
  let block ← t.readInt Key.block
  let cascade ← t.readInt Key.cascade
  let expression ← t.readInt Key.expression
  let constructorInitializer ← t.readInt Key.constructorInitializer
  return ⟨block, cascade, expression, constructorInitializer⟩

def ofValue : Value → Report Draft
  | .table t => ofTable t
  | v => do
    if !v.holds then return {}
    ofTable (← Report.ofExcept (Table.ofPairs v))

end Widths.Draft

namespace Style.Draft

def ofTable (t : Table) : Report Draft := do
  let blockLike ← t.readStyleFlag Key.bracesOnBlockLike
  let collections ← t.readStyleFlag Key.bracesOnCollectionLiterals
  let enum ← t.readStyleFlag Key.bracesOnEnum
  let tryClause ← t.readStyleFlag Key.tryClauseOnNewline
  let ifElse ← t.readStyleFlag Key.ifElseOnNewline
  return ⟨blockLike, collections, enum, tryClause, ifElse⟩

def ofValue : Value → Report Draft
  | .table t => ofTable t
  | v =>
    if !v.holds then pure {}
    else match v.contains? with
      | none => Report.fail (.call (.notATable v))
      | some has =>
        if parameters.any has then Report.fail (.call (.notATable v)) else pure {}

end Style.Draft

namespace Draft

def sourceText (file : Option String) : String :=
  file.getD "<dict>"

def readProfile (t : Table) (source : String) : Report Value :=
  match t.lookup Key.profile with
  | none => pure .null
  | some v => do return .profile (← Profile.ofToken v source)

def notTextText (source : String) (v : Value) : Message :=
  .showing ("Ignoring non-string line ending in " ++ source ++ ": ") v

def readLineEnding (t : Table) (source : String) : Report Value :=
  let v := t.valueOf Key.lineEnding
  match v.asText? with
  | some _ => do
    let e ← LineEnding.ofToken v source
    return Value.ofOption (fun e => .text e.newline) e
  | none =>
    if v.isNull then pure .null
    else do
      Report.warn (notTextText source v)
      return .null

def readFixes (t : Table) (source : String) : Report (Option FixSet) :=
  if t.hasKey Key.fixes then do
    return some (← Fix.ofTokens (.list (t.listAt Key.fixes)) source)
  else pure none

def ofTable (t : Table) (file : Option String) : Report Draft := do
  let source := sourceText file
  let formatting := t.tableAt Key.formatting
  Report.trace (.showing "TOML [formatting]: " (.table formatting))
  let indent := t.tableAt Key.indent
  Report.trace (.showing "TOML [indent]: " (.table indent))
  let styleTable := t.tableAt Key.style
  Report.trace (.showing "TOML [style]: " (.table styleTable))
  let widths ← Widths.Draft.ofTable indent
  let style ← Style.Draft.ofTable styleTable
  let profile ← readProfile formatting source
  let indentWidth ← formatting.readInt Key.indent
  let pageWidth ← formatting.readInt Key.pageWidth
  let insertSpaces ← formatting.readFlag Key.insertSpaces
  let lineEnding ← readLineEnding formatting source
  let fixes ← readFixes formatting source
  return {
    profile := profile
    indent := indentWidth
    pageWidth := pageWidth
    lineEnding := lineEnding
    insertSpaces := insertSpaces
    fixes := fixes
    widths := widths
    style := style
    sources := file.toList.map .path }

def ofValue (v : Value) (file : Option String) : Report Draft :=
  match v with
  | .table t => ofTable t file
  | v => Report.fail (.missingMember v)

end Draft

end FormatSettings
