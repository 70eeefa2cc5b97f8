import FormatSettings.Draft.Operations
import FormatSettings.Proofs.Draft.Patched
import FormatSettings.Proofs.FixSet

namespace FormatSettings

namespace Draft

def HasBuiltFixes (d : Draft) : Prop :=
  ∀ s, d.fixes = some s → s.IsBuilt

variable {d e : Draft}

theorem fixesOf?_fixes (h : d.HasBuiltFixes) :
    fixesOf? (Value.ofOption (·.toValue false) d.fixes) = d.fixes := by
  cases hfixes : d.fixes with
  | none => rfl
  | some s =>
    change (FixSet.ofValues? s.elements).toOption = some s
    rw [(h s hfixes).ofValues?_elements]
    rfl

theorem isProper_fixes (h : d.HasBuiltFixes) :
    isProper Key.fixes (Value.ofOption (·.toValue false) d.fixes) = true := by
  change (_ || (fixesOf? _).isSome) = true
  rw [fixesOf?_fixes h]
  cases d.fixes <;> rfl

theorem improper_toTable (h : d.HasBuiltFixes) : improper d.toTable = [] := by
  apply List.filter_eq_nil_iff.mpr
  intro entry hentry
  simp only [toTable, List.mem_cons, List.not_mem_nil, or_false] at hentry
  rcases hentry with rfl | rfl | rfl | rfl | rfl | rfl | rfl | rfl | rfl
  case inr.inr.inr.inr.inr.inl => simp [isProper_fixes h]
  all_goals exact Bool.false_ne_true

theorem ofProper_toTable (h : d.HasBuiltFixes) : ofProper d.toTable = d := by
  have hfixes : fixesOf? (d.toTable.valueOf Key.fixes) = d.fixes := fixesOf?_fixes h
  rw [ofProper, hfixes]
  rfl

theorem ofFields?_toTable (h : d.HasBuiltFixes) : ofFields? d.toTable = some d := by
  rw [ofFields?, improper_toTable h, ofProper_toTable h]
  rfl

theorem freezeOptions_toTable (h : d.HasBuiltFixes) :
    Value.freezeOptions d.toTable = d.freeze := by
  rw [Value.freezeOptions, ofFields?_toTable h]

theorem merge_empty_left (d : Draft) : Draft.merge {} d = d := by
  simp only [merge, Widths.Draft.merge, Style.Draft.merge, Value.orElse_null_right,
    Option.or_none, List.nil_append]

end Draft

end FormatSettings
