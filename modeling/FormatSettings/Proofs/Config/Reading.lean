import FormatSettings.Config.Reading
import FormatSettings.Proofs.Draft.Patched

namespace FormatSettings

def Profile.chosen : Value → Except ValueFault Profile
  | .profile p => .ok p
  | v => (parse? v).map (·.getD fallback)

theorem Profile.chosen_of_ne {v : Value} (h : ∀ p, v = .profile p → False) :
    chosen v = (parse? v).map (·.getD fallback) := by
  unfold chosen
  split
  · next p => exact absurd rfl (h p)
  · rfl

theorem Profile.outcome_ofToken (v : Value) (source : String) :
    (ofToken v source).outcome = (chosen v).mapError .value := by
  unfold ofToken
  split
  · rfl
  · next hne =>
    rw [chosen_of_ne hne]
    generalize parse? v = found
    cases found with
    | error fault => rfl
    | ok p? =>
      cases p? with
      | none => rfl
      | some p => rfl

namespace Table

def intAt? (t : Table) (key : String) : Option Int :=
  match t.valueOf key with
  | .int i => some i
  | _ => none

def flagAt? (t : Table) (key : String) : Option Bool :=
  match t.valueOf key with
  | .bool b => some b
  | _ => none

def lineEndingAt? (t : Table) : Option LineEnding :=
  LineEnding.selected? (t.valueOf Key.lineEnding)

def profileAt? (t : Table) : Except ValueFault (Option Profile) :=
  match t.lookup Key.profile with
  | none => .ok none
  | some v => (Profile.chosen v).map some

def fixesAt? (t : Table) : Option FixSet :=
  if t.hasKey Key.fixes then
    some (FixSet.ofFixes ((t.listAt Key.fixes).filterMap fun v => Fix.parse? v.tokenText))
  else none

/-- The listed fixes are read as text, which a number that is too long cannot be. -/
def hasReadableFixes (t : Table) : Bool :=
  Value.areWritable (t.listAt Key.fixes)

def readableProfile? (t : Table) : Except Failure (Option Profile) := do
  let profile ← t.profileAt?.mapError .value
  if t.hasReadableFixes then return profile else throw (.value .integerTooLong)

theorem readableProfile?_eq_ok_iff {t : Table} {profile : Option Profile} :
    t.readableProfile? = .ok profile ↔ t.profileAt? = .ok profile ∧ t.hasReadableFixes = true := by
  unfold readableProfile?
  cases t.profileAt? with
  | error fault => exact iff_of_false nofun nofun
  | ok found =>
    change (if t.hasReadableFixes then Except.ok found else _) = _ ↔ _
    cases t.hasReadableFixes <;> simp

theorem outcome_readInt (t : Table) (key : String) :
    (t.readInt key).outcome = .ok (Value.ofOption .int (t.intAt? key)) := by
  unfold readInt intAt?
  cases t.valueOf key <;> rfl

theorem outcome_readFlag (t : Table) (key : String) :
    (t.readFlag key).outcome = .ok (Value.ofOption .bool (t.flagAt? key)) := by
  unfold readFlag flagAt?
  cases t.valueOf key <;> rfl

theorem outcome_readStyleFlag (t : Table) (key : String) :
    (t.readStyleFlag key).outcome = .ok (Value.ofOption .bool (t.flagAt? key)) := by
  unfold readStyleFlag flagAt? valueOf
  cases t.lookup key with
  | none => rfl
  | some v => cases v <;> rfl

def widths (t : Table) : Widths.Draft where
  block := Value.ofOption .int (t.intAt? Key.block)
  cascade := Value.ofOption .int (t.intAt? Key.cascade)
  expression := Value.ofOption .int (t.intAt? Key.expression)
  constructorInitializer := Value.ofOption .int (t.intAt? Key.constructorInitializer)

def style (t : Table) : Style.Draft where
  bracesOnBlockLike := Value.ofOption .bool (t.flagAt? Key.bracesOnBlockLike)
  bracesOnCollectionLiterals := Value.ofOption .bool (t.flagAt? Key.bracesOnCollectionLiterals)
  bracesOnEnum := Value.ofOption .bool (t.flagAt? Key.bracesOnEnum)
  tryClauseOnNewline := Value.ofOption .bool (t.flagAt? Key.tryClauseOnNewline)
  ifElseOnNewline := Value.ofOption .bool (t.flagAt? Key.ifElseOnNewline)

end Table

theorem Widths.Draft.outcome_ofTable (t : Table) : (ofTable t).outcome = .ok t.widths := by
  simp only [ofTable, Report.outcome_bind, Table.outcome_readInt]
  rfl

theorem Style.Draft.outcome_ofTable (t : Table) : (ofTable t).outcome = .ok t.style := by
  simp only [ofTable, Report.outcome_bind, Table.outcome_readStyleFlag]
  rfl

namespace Draft

theorem outcome_readProfile (t : Table) (source : String) :
    (readProfile t source).outcome =
      (t.profileAt?.map (Value.ofOption .profile)).mapError .value := by
  unfold readProfile Table.profileAt?
  cases t.lookup Key.profile with
  | none => rfl
  | some v =>
    simp only [Report.outcome_bind, Profile.outcome_ofToken]
    cases Profile.chosen v with
    | error fault => rfl
    | ok p => rfl

theorem outcome_readLineEnding (t : Table) (source : String) :
    (readLineEnding t source).outcome =
      .ok (Value.ofOption (fun e => .text e.newline) t.lineEndingAt?) := by
  unfold readLineEnding Table.lineEndingAt?
  simp only
  cases h : (t.valueOf Key.lineEnding).asText? with
  | some s =>
    simp only [Report.outcome_bind, LineEnding.outcome_ofToken]
    rfl
  | none =>
    have hnone : LineEnding.selected? (t.valueOf Key.lineEnding) = none := by
      simp [LineEnding.selected?, LineEnding.ofNewlineValue?, LineEnding.ofNameValue?, h]
    rw [hnone]
    cases (t.valueOf Key.lineEnding).isNull with
    | true => rfl
    | false => rfl

theorem outcome_readFixes (t : Table) (source : String) :
    (readFixes t source).outcome =
      if t.hasReadableFixes then .ok t.fixesAt? else .error (.value .integerTooLong) := by
  unfold readFixes Table.fixesAt? Table.hasReadableFixes
  cases h : t.hasKey Key.fixes with
  | false =>
    have hmissing : t.lookup Key.fixes = none :=
      Option.isNone_iff_eq_none.mp (Option.isSome_eq_false_iff.mp h)
    have hempty : t.listAt Key.fixes = [] := by
      rw [Table.listAt, Table.valueOf, hmissing]
      rfl
    rw [hempty]
    rfl
  | true =>
    simp only [↓reduceIte, Fix.ofTokens, Value.elements?, Report.outcome_bind,
      Fix.outcome_selected]
    cases Value.areWritable (t.listAt Key.fixes) <;> rfl

def ofSettings (t : Table) (file : Option String) (profile : Option Profile) : Draft :=
  let formatting := t.tableAt Key.formatting
  { profile := Value.ofOption .profile profile
    indent := Value.ofOption .int (formatting.intAt? Key.indent)
    pageWidth := Value.ofOption .int (formatting.intAt? Key.pageWidth)
    lineEnding := Value.ofOption (fun e => .text e.newline) formatting.lineEndingAt?
    insertSpaces := Value.ofOption .bool (formatting.flagAt? Key.insertSpaces)
    fixes := formatting.fixesAt?
    widths := (t.tableAt Key.indent).widths
    style := (t.tableAt Key.style).style
    sources := file.toList.map .path }

theorem outcome_ofTable (t : Table) (file : Option String) :
    (ofTable t file).outcome =
      (t.tableAt Key.formatting).readableProfile?.map (ofSettings t file) := by
  simp only [ofTable, Report.outcome_bind, Widths.Draft.outcome_ofTable,
    Style.Draft.outcome_ofTable, outcome_readProfile, Table.outcome_readInt,
    Table.outcome_readFlag, outcome_readLineEnding, outcome_readFixes, Table.readableProfile?]
  cases (t.tableAt Key.formatting).profileAt? with
  | error fault => rfl
  | ok p => cases (t.tableAt Key.formatting).hasReadableFixes <;> rfl

end Draft

end FormatSettings
