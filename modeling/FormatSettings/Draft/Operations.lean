import FormatSettings.Draft.Arguments
import FormatSettings.Draft.Fields

/-!
The operations on drafts, bundles and options, for any value: a value that lacks an operation fails.
Proper drafts behave as they do on their own; a field of the wrong kind fails once it is used.
-/

namespace FormatSettings.Value

def thaw (v : Value) : Except Failure Value :=
  match v with
  | .widths w => .ok w.thaw.toValue
  | .style s => .ok s.thaw.toValue
  | v => match Options.ofRecord? v with
    | some o => .ok o.thaw.toValue
    | none => .error (.missingMember v)

def isEmpty (v : Value) : Except Failure Bool :=
  match Widths.Draft.ofRecord? v, Style.Draft.ofRecord? v with
  | some d, _ => .ok d.isEmpty
  | none, some d => .ok d.isEmpty
  | none, none => .error (.missingMember v)

def baseStyle (v : Value) : Report Style :=
  match v.fieldsOf? Draft.recordName with
  | some fields => Draft.styleOf (fields.valueOf Key.profile)
  | none => Report.fail (.missingMember v)

def resolver (v : Value) : Except Failure (Value → Except Failure Value) :=
  match Widths.Draft.ofRecord? v, Style.Draft.ofRecord? v with
  | some d, _ => .ok fun base => (d.resolveOver base).map .widths
  | none, some d => .ok fun base => (d.resolveOver base).map .style
  | none, none => .error (.missingMember v)

def resolve (v base : Value) : Except Failure Value := do
  (← v.resolver) base

def fixSet (v : Value) : Except Failure FixSet :=
  if v.isNull then .ok .empty else FixSet.ofValue? v

def freezeFields (fields : Table) (widths : Report Value) : Report Options := do
  let profile := fields.valueOf Key.profile
  let styleDraft := fields.valueOf Key.style
  let resolve ← Report.ofExcept styleDraft.resolver
  let base ← Draft.styleOf profile
  let style ← Report.ofExcept (resolve (.style base))
  let label ← Report.ofExcept (Draft.labelOf profile)
  Report.trace (Draft.resolvingText label styleDraft)
  let fixes ← Report.ofExcept (fields.valueOf Key.fixes).fixSet
  let widths ← widths
  let options ← Report.ofExcept
    (Options.ofValues ((fields.valueOf Key.indent).orElse (.int Options.default.indent))
      ((fields.valueOf Key.pageWidth).orElse (.int Options.default.pageWidth))
      (fields.valueOf Key.lineEnding)
      ((fields.valueOf Key.insertSpaces).orElse (.bool Options.default.insertSpaces)) widths style
      (.ok fixes))
  Report.debug (Draft.resolvedText options)
  return options

def freezeBundle (v : Value) : Except Failure Value :=
  match Widths.Draft.ofRecord? v, Style.Draft.ofRecord? v with
  | some d, _ => d.freeze.map .widths
  | none, some d => d.freeze.map .style
  | none, none => .error (.missingMember v)

def freezeOptions (fields : Table) : Report Options :=
  match Draft.ofFields? fields with
  | some d => d.freeze
  | none =>
    let widths := fields.valueOf Key.widths
    freezeFields fields
      (match h : widths.fieldsOf? Draft.recordName with
        | some inner =>
          have : sizeOf inner < sizeOf fields :=
            Nat.lt_of_lt_of_le (sizeOf_fieldsOf?_lt h) (Table.sizeOf_valueOf_le fields Key.widths)
          do return (← freezeOptions inner).toValue
        | none => Report.ofExcept widths.freezeBundle)
termination_by sizeOf fields

def freeze (v : Value) : Report Value :=
  match v.fieldsOf? Draft.recordName with
  | some fields => do return (← freezeOptions fields).toValue
  | none => Report.ofExcept v.freezeBundle

def joined (v w : Value) : Except Failure Value :=
  match v, w with
  | .list vs, .list ws => .ok (.list (vs ++ ws))
  | v, w => match v.asText?, w.asText? with
    | some s, some t => .ok (.text (s ++ t))
    | _, _ => match v.asNumber?, w.asNumber? with
      | some (.int i), some (.int j) => .ok (.int (i + j))
      | _, _ => .error (.call (.notJoined v))

def mergeFields (lower upper : Table) (widths style : Except Failure Value) :
    Except Failure Value := do
  let top (key : String) : Value := (upper.valueOf key).orElse (lower.valueOf key)
  let fixes ←
    if (top Key.fixes).isNull then pure .null
    else (FixSet.ofValue? (top Key.fixes)).map (·.toValue false)
  let widths ← widths
  let style ← style
  let sources ← (lower.valueOf Key.sources).joined (upper.valueOf Key.sources)
  return .record Draft.recordName
    [(Key.profile, top Key.profile), (Key.indent, top Key.indent),
     (Key.pageWidth, top Key.pageWidth), (Key.lineEnding, top Key.lineEnding),
     (Key.insertSpaces, top Key.insertSpaces), (Key.fixes, fixes), (Key.widths, widths),
     (Key.style, style), (Key.sources, sources)]

def merge (lower upper : Value) : Except Failure Value :=
  match h : lower.fieldsOf? Draft.recordName with
  | some fields =>
    have bound (key : String) : sizeOf (fields.valueOf key) < sizeOf lower :=
      Nat.lt_of_le_of_lt (Table.sizeOf_valueOf_le fields key) (sizeOf_fieldsOf?_lt h)
    have := bound Key.widths
    have := bound Key.style
    match upper.fieldsOf? Draft.recordName with
    | none => .error (.missingMember upper)
    | some upperFields => match Draft.ofFields? fields, Draft.ofFields? upperFields with
      | some d, some e => .ok (d.merge e).toValue
      | _, _ => mergeFields fields upperFields
        (merge (fields.valueOf Key.widths) (upperFields.valueOf Key.widths))
        (merge (fields.valueOf Key.style) (upperFields.valueOf Key.style))
  | none => match Widths.Draft.ofRecord? lower, Style.Draft.ofRecord? lower with
    | some d, _ => do return (d.merge (← Widths.Draft.ofFields upper)).toValue
    | none, some d => do return (d.merge (← Style.Draft.ofFields upper)).toValue
    | none, none => .error (.missingMember lower)
termination_by sizeOf lower

def computedNames : Value → List String
  | .profile _ => ["name", "value", "code"]
  | .fix _ => ["name", "value", "key"]
  | .lineEnding _ => ["name", "value", "token"]
  | _ => []

def setField (v : Value) (name : String) (new : Value) : Except Failure Value :=
  let refuse (isField : Bool) : Except Failure Value :=
    .error (if isField then .frozenField name else .call (.unknownArgument name))
  match v with
  | .record recordName fields =>
    if recordName == Options.recordName then refuse (Table.hasKey fields name)
    else .ok (.record recordName (fields.map fun (k, old) => (k, if k == name then new else old)))
  | .widths w => refuse (w.toTable.hasKey name)
  | .style s => refuse (s.toTable.hasKey name)
  | .profile _ | .fix _ | .lineEnding _ =>
    if (computedNames v).contains name then .error (.missingMember v) else .ok v
  | _ => .error (.missingMember v)

def assign (v : Value) (path : List String) (new : Value) : Except Failure Value :=
  match path with
  | [] => .ok new
  | [name] => v.setField name new
  | name :: rest => match v with
    | .record recordName fields => do
      let inner ← assign (← v.field name) rest new
      return .record recordName (fields.map fun (k, old) => (k, if k == name then inner else old))
    | v => do assign (← v.field name) rest new

def addFix (v fix : Value) : Except Failure Value := do
  match ← v.field Key.fixes with
  | .set false vs =>
    let fixes ← (← FixSet.ofValues? vs).insertAll? [fix]
    v.setField Key.fixes (fixes.toValue false)
  | fixes => throw (.missingMember fixes)

def fixesStep (args others : Table) : Draft.Step := fun d => do
  let next ← Draft.fixesStep args d
  if (args.valueOf Key.fixes).holds && (others.valueOf Key.fixes).holds then
    Report.fail (.call (.notJoined (others.valueOf Key.fixes)))
  return next

def widthsStep (args others : Table) : Draft.Step := fun d =>
  match others.lookup Key.widths with
  | some v => Report.fail (.missingMember v)
  | none => Draft.widthsStep args d

def steps (args : Value) (others : Table) : List Draft.Step :=
  match args with
  | .table t => Draft.scalarSteps t ++ [fixesStep t others, widthsStep t others]
  | v => [fun _ => Report.fail (.missingMember v)]

def recordWith (others : Table) (d : Draft) : Value :=
  .record Draft.recordName
    (d.tableWith (others.filter fun e => e.1 != Key.fixes || d.fixes.isNone))

def patch (v args : Value) : Value × Report Unit :=
  match v.fieldsOf? Draft.recordName with
  | none => (v, Report.fail (.missingMember v))
  | some fields =>
    let others := Draft.improper fields
    match others.lookup Key.sources with
    | some sources => (v, do
      Report.debug (Draft.applyingText args)
      Report.fail (.missingMember sources))
    | none =>
      let (last, r) :=
        Draft.patchBy (steps args others) (recordWith others) (Draft.ofProper fields) args
      (recordWith others last, r)

def resolveOptions (profile overrides : Value) : Report Value := do
  let d ←
    if overrides.isNull then pure ({} : Draft).toValue
    else Report.ofExcept (merge ({} : Draft).toValue overrides)
  if profile.isNull then d.freeze
  else do
    let p ← Profile.ofToken profile ""
    let d ← Report.ofExcept (d.setField Key.profile (.profile p))
    d.freeze

def sameAsItself : Value → Bool
  | .float .nan => false
  | _ => true

end FormatSettings.Value
