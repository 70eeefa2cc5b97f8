import FormatSettings.Options.Arguments
import FormatSettings.Proofs.Draft.Freezing

namespace FormatSettings

def Arguments.Replaces (params : List String) (name : String) (v w : Value) (a b : Arguments) : Prop :=
  ∃ t u, a.bind params = .ok t ∧ b.bind params = .ok u ∧ t.lookup name = some v ∧
    u.lookup name = some w ∧ ∀ other ∈ params, other ≠ name → t.lookup other = u.lookup other

namespace Options

def ofBound (t : Table) (lineEnding fixes : Value) : Except Failure Options :=
  ofValues (t.valueOr Key.indent (.int default.indent))
    (t.valueOr Key.pageWidth (.int default.pageWidth)) lineEnding
    (t.valueOr Key.insertSpaces (.bool default.insertSpaces))
    (t.valueOr Key.widths (.widths default.widths)) (t.valueOr Key.style (.style default.style))
    (FixSet.ofValue? fixes)

variable {a b : Arguments} {v w : Value}

theorem ofArguments_of_bind {t : Table} (h : a.bind parameters = .ok t) :
    ofArguments a =
      ofBound t (t.valueOr Key.lineEnding .null) (t.valueOr Key.fixes (.set true [])) := by
  rw [ofArguments, h]
  rfl

theorem ofBound_congr {t u : Table}
    (h : ∀ name ∈ parameters, name ≠ Key.lineEnding → name ≠ Key.fixes →
      t.lookup name = u.lookup name) : ofBound t = ofBound u := by
  unfold ofBound Table.valueOr
  rw [h Key.indent (by decide) (by decide) (by decide),
    h Key.pageWidth (by decide) (by decide) (by decide),
    h Key.insertSpaces (by decide) (by decide) (by decide),
    h Key.widths (by decide) (by decide) (by decide),
    h Key.style (by decide) (by decide) (by decide)]

theorem ofArguments_of_replaces_lineEnding (h : a.Replaces parameters Key.lineEnding v w b) :
    ∃ t fixes, ofArguments a = ofBound t v fixes ∧ ofArguments b = ofBound t w fixes := by
  obtain ⟨t, u, ht, hu, hv, hw, hothers⟩ := h
  refine ⟨t, t.valueOr Key.fixes (.set true []), ?_, ?_⟩
  · rw [ofArguments_of_bind ht, Table.valueOr, hv, Option.getD_some]
  · rw [ofArguments_of_bind hu, Table.valueOr, hw, Option.getD_some, Table.valueOr, Table.valueOr,
      hothers Key.fixes (by decide) (by decide),
      ofBound_congr fun name hname hline _ => hothers name hname hline]

theorem ofArguments_of_replaces_fixes (h : a.Replaces parameters Key.fixes v w b) :
    ∃ t lineEnding, ofArguments a = ofBound t lineEnding v ∧
      ofArguments b = ofBound t lineEnding w := by
  obtain ⟨t, u, ht, hu, hv, hw, hothers⟩ := h
  refine ⟨t, t.valueOr Key.lineEnding .null, ?_, ?_⟩
  · rw [ofArguments_of_bind ht, Table.valueOr, Table.valueOr, hv, Option.getD_some]
  · rw [ofArguments_of_bind hu, Table.valueOr, Table.valueOr, hw, Option.getD_some, Table.valueOr,
      hothers Key.lineEnding (by decide) (by decide),
      ofBound_congr fun name hname _ hfixes => hothers name hname hfixes]

theorem checkLineEnding_text (e : LineEnding) :
    checkLineEnding (.text e.newline) = .ok (some ⟨e, false⟩) :=
  checkLineEnding_newline (some e)

theorem ofBound_lineEnding {l : Option Newline} (h : checkLineEnding v = .ok l) (t : Table)
    (fixes : Value) :
    ofBound t v fixes = ofBound t .null fixes >>= fun o => pure { o with lineEnding := l } := by
  simp only [ofBound, ofValues, h, bind_assoc]
  exact bind_congr fun i => bind_congr fun p => rfl

theorem ofArguments_newline {o : Options} (h : ofArguments a = .ok o) {e : LineEnding}
    (hreplaces : a.Replaces parameters Key.lineEnding .null (.text e.newline) b) :
    ofArguments b = .ok { o with lineEnding := some ⟨e, false⟩ } := by
  obtain ⟨t, fixes, ha, hb⟩ := ofArguments_of_replaces_lineEnding hreplaces
  rw [hb, ofBound_lineEnding (checkLineEnding_text e), ← ha, h]
  rfl

end Options

end FormatSettings
