import FormatSettings.Draft

/-!
Drafts and bundles of settings read back from the records that stand for them. Callers may put a value
of any kind into any field of a draft; a draft is proper if its fields are of the right kinds.
-/

namespace FormatSettings

namespace Table

theorem sizeOf_lookup_lt {t : Table} {key : String} {v : Value} (h : t.lookup key = some v) :
    sizeOf v < sizeOf t := by
  induction t with
  | nil => simp at h
  | cons e t ih =>
    obtain ⟨k, w⟩ := e
    simp only [List.cons.sizeOf_spec, Prod.mk.sizeOf_spec]
    rw [List.lookup_cons] at h
    split at h
    · cases h
      omega
    · have := ih h
      omega

theorem sizeOf_valueOf_le (t : Table) (key : String) : sizeOf (t.valueOf key) ≤ sizeOf t := by
  unfold valueOf
  cases h : t.lookup key with
  | some v => exact Nat.le_of_lt (sizeOf_lookup_lt h)
  | none =>
    have hnull : sizeOf (none.getD Value.null) = 1 := rfl
    rw [hnull]
    cases t with
    | nil => exact Nat.le_refl 1
    | cons e t =>
      simp only [List.cons.sizeOf_spec]
      omega

end Table

namespace Value

def field? (v : Value) (name : String) : Option Value :=
  match v with
  | .record _ fields => fields.lookup name
  | .widths w => w.toTable.lookup name
  | .style s => s.toTable.lookup name
  | _ => none

def field (v : Value) (name : String) : Except Failure Value :=
  match v.field? name with
  | some w => .ok w
  | none => .error (.missingMember v)

def orField (v base : Value) (name : String) : Except Failure Value :=
  if v.isNull then base.field name else .ok v

def fieldsOf? (recordName : String) : Value → Option Table
  | .record name fields => if name == recordName then some fields else none
  | _ => none

theorem sizeOf_fieldsOf?_lt {recordName : String} {v : Value} {fields : Table}
    (h : v.fieldsOf? recordName = some fields) : sizeOf fields < sizeOf v := by
  cases v with
  | record name fs =>
    rw [fieldsOf?] at h
    split at h
    · cases h
      rw [Value.record.sizeOf_spec]
      omega
    · cases h
  | _ => cases h

end Value

namespace Widths.Draft

def ofRecord? (v : Value) : Option Draft :=
  (v.fieldsOf? recordName).map fun t =>
    ⟨t.valueOf Key.block, t.valueOf Key.cascade, t.valueOf Key.expression,
      t.valueOf Key.constructorInitializer⟩

def ofFields (v : Value) : Except Failure Draft := do
  return ⟨← v.field Key.block, ← v.field Key.cascade, ← v.field Key.expression,
    ← v.field Key.constructorInitializer⟩

def resolveOver (d : Draft) (base : Value) : Except Failure Widths := do
  let block ← d.block.orField base Key.block
  let cascade ← d.cascade.orField base Key.cascade
  let expression ← d.expression.orField base Key.expression
  let constructorInitializer ←
    d.constructorInitializer.orField base Key.constructorInitializer
  ofValues block cascade expression constructorInitializer

end Widths.Draft

namespace Style.Draft

def ofRecord? (v : Value) : Option Draft :=
  (v.fieldsOf? recordName).map fun t =>
    ⟨t.valueOf Key.bracesOnBlockLike, t.valueOf Key.bracesOnCollectionLiterals,
      t.valueOf Key.bracesOnEnum, t.valueOf Key.tryClauseOnNewline,
      t.valueOf Key.ifElseOnNewline⟩

def ofFields (v : Value) : Except Failure Draft := do
  return ⟨← v.field Key.bracesOnBlockLike, ← v.field Key.bracesOnCollectionLiterals,
    ← v.field Key.bracesOnEnum, ← v.field Key.tryClauseOnNewline, ← v.field Key.ifElseOnNewline⟩

def resolveOver (d : Draft) (base : Value) : Except Failure Style := do
  let blockLike ← d.bracesOnBlockLike.orField base Key.bracesOnBlockLike
  let collections ← d.bracesOnCollectionLiterals.orField base Key.bracesOnCollectionLiterals
  let enum ← d.bracesOnEnum.orField base Key.bracesOnEnum
  let tryClause ← d.tryClauseOnNewline.orField base Key.tryClauseOnNewline
  let ifElse ← d.ifElseOnNewline.orField base Key.ifElseOnNewline
  ofValues blockLike collections enum tryClause ifElse

end Style.Draft

namespace Options

def ofRecord? (v : Value) : Option Options := do
  let t ← v.fieldsOf? recordName
  (ofValues (t.valueOf Key.indent) (t.valueOf Key.pageWidth) (t.valueOf Key.lineEnding)
    (t.valueOf Key.insertSpaces) (t.valueOf Key.widths) (t.valueOf Key.style)
    (FixSet.ofValue? (t.valueOf Key.fixes))).toOption

end Options

namespace Draft

def fixesOf? : Value → Option FixSet
  | .set false vs => (FixSet.ofValues? vs).toOption
  | _ => none

def listOf : Value → List Value
  | .list vs => vs
  | _ => []

def isProper (key : String) (v : Value) : Bool :=
  if key == Key.fixes then v.isNull || (fixesOf? v).isSome
  else if key == Key.widths then (Widths.Draft.ofRecord? v).isSome
  else if key == Key.style then (Style.Draft.ofRecord? v).isSome
  else if key == Key.sources then match v with
    | .list _ => true
    | _ => false
  else true

def improper (fields : Table) : Table :=
  fields.filter fun e => !isProper e.1 e.2

def ofProper (fields : Table) : Draft where
  profile := fields.valueOf Key.profile
  indent := fields.valueOf Key.indent
  pageWidth := fields.valueOf Key.pageWidth
  lineEnding := fields.valueOf Key.lineEnding
  insertSpaces := fields.valueOf Key.insertSpaces
  fixes := fixesOf? (fields.valueOf Key.fixes)
  widths := (Widths.Draft.ofRecord? (fields.valueOf Key.widths)).getD {}
  style := (Style.Draft.ofRecord? (fields.valueOf Key.style)).getD {}
  sources := listOf (fields.valueOf Key.sources)

def ofFields? (fields : Table) : Option Draft :=
  if (improper fields).isEmpty then some (ofProper fields) else none

def ofRecord? (v : Value) : Option Draft :=
  (v.fieldsOf? recordName).bind ofFields?

def tableWith (d : Draft) (others : Table) : Table :=
  d.toTable.map fun (key, v) => (key, (others.lookup key).getD v)

end Draft

end FormatSettings
