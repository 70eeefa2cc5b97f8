import FormatSettings.Draft
import FormatSettings.Proofs.Draft.Patched

namespace FormatSettings

theorem checkWidth_eq_ok_iff {name : String} {v : Value} {n : Nat} :
    checkWidth name v = .ok n ↔ v = .int (.ofNat n) := by
  constructor
  · intro h
    unfold checkWidth at h
    split at h
    · cases h
      rfl
    · cases h
    · cases h
  · rintro rfl
    rfl

theorem checkWidth_negSucc (name : String) (n : Nat) :
    checkWidth name (.int (.negSucc n)) = .error (.ofOption (.negative name (.negSucc n))) := rfl

theorem checkWidth_minusOne (name : String) :
    checkWidth name (.int (.negSucc 0)) = .error (.option (.negative name (-1))) := by
  have hlimit : (Value.int (.negSucc 0)).isWritable = true := by decide +kernel
  rw [checkWidth_negSucc]
  exact congrArg Except.error (if_pos hlimit)

theorem checkStyleFlag_eq_ok_iff {name : String} {v : Value} {b : Bool} :
    checkStyleFlag name v = .ok b ↔ v = .bool b := by
  cases v with
  | bool c => simp [checkStyleFlag]
  | _ => simp [checkStyleFlag]

theorem Options.checkInsertSpaces_eq_ok_iff {v : Value} {b : Bool} :
    checkInsertSpaces v = .ok b ↔ v = .bool b := by
  cases v with
  | bool c => simp [checkInsertSpaces]
  | _ => simp [checkInsertSpaces]

theorem Options.checkWidths_eq_ok_iff {v : Value} {w : Widths} :
    checkWidths v = .ok w ↔ v = .widths w := by
  cases v with
  | widths x => simp [checkWidths]
  | _ => simp [checkWidths]

theorem Options.checkStyle_eq_ok_iff {v : Value} {s : Style} :
    checkStyle v = .ok s ↔ v = .style s := by
  cases v with
  | style x => simp [checkStyle]
  | _ => simp [checkStyle]

theorem LineEnding.ofNewline?_newline (e : LineEnding) : ofNewline? e.newline = some e := by
  cases e <;> decide +kernel

theorem Options.checkLineEnding_newline (e? : Option LineEnding) :
    checkLineEnding (Value.ofOption (fun e => .text e.newline) e?) =
      .ok (e?.map fun e => ⟨e, false⟩) := by
  cases e? with
  | none => rfl
  | some e =>
    have hnewline : (Value.asText? (.text e.newline)).bind LineEnding.ofNewline? = some e :=
      e.ofNewline?_newline
    simp only [Value.ofOption, checkLineEnding, hnewline, Option.map_some]

theorem Options.checkPageWidth_eq_ok_iff {v : Value} {n : { n : Nat // 0 < n }} :
    checkPageWidth v = .ok n ↔ v = .int (.ofNat n.val) := by
  rw [checkPageWidth, Except.bind_eq_ok]
  constructor
  · rintro ⟨m, hm, hn⟩
    split at hn
    · cases hn
      exact checkWidth_eq_ok_iff.mp hm
    · cases hn
  · intro hv
    refine ⟨n.val, checkWidth_eq_ok_iff.mpr hv, ?_⟩
    rw [dif_pos n.property]
    rfl

namespace Widths

theorem ofValues_eq_ok_iff {b c e i : Value} {w : Widths} :
    ofValues b c e i = .ok w ↔ Draft.mk b c e i = w.thaw := by
  simp only [ofValues, Except.bind_eq_ok, checkWidth_eq_ok_iff, thaw, Draft.mk.injEq]
  constructor
  · rintro ⟨_, rfl, _, rfl, _, rfl, _, rfl, hw⟩
    cases hw
    exact ⟨rfl, rfl, rfl, rfl⟩
  · rintro ⟨rfl, rfl, rfl, rfl⟩
    exact ⟨_, rfl, _, rfl, _, rfl, _, rfl, rfl⟩

theorem Draft.resolve_eq_ok_iff {d : Draft} {base w : Widths} :
    d.resolve base = .ok w ↔ base.thaw.merge d = w.thaw :=
  ofValues_eq_ok_iff

end Widths

namespace Style

theorem ofValues_eq_ok_iff {b c e t i : Value} {s : Style} :
    ofValues b c e t i = .ok s ↔ Draft.mk b c e t i = s.thaw := by
  simp only [ofValues, Except.bind_eq_ok, checkStyleFlag_eq_ok_iff, thaw, Draft.mk.injEq]
  constructor
  · rintro ⟨_, rfl, _, rfl, _, rfl, _, rfl, _, rfl, hs⟩
    cases hs
    exact ⟨rfl, rfl, rfl, rfl, rfl⟩
  · rintro ⟨rfl, rfl, rfl, rfl, rfl⟩
    exact ⟨_, rfl, _, rfl, _, rfl, _, rfl, _, rfl, rfl⟩

theorem Draft.resolve_eq_ok_iff {d : Draft} {base s : Style} :
    d.resolve base = .ok s ↔ base.thaw.merge d = s.thaw :=
  ofValues_eq_ok_iff

end Style

def Style.under : Option Profile → Style
  | some .expanded => .expanded
  | _ => .default

theorem Draft.outcome_styleOf (profile : Option Profile) :
    (styleOf (Value.ofOption .profile profile)).outcome = .ok (Style.under profile) := by
  cases profile with
  | none => rfl
  | some p => cases p <;> rfl

theorem Options.ofValues_eq_ok_iff {indent pageWidth lineEnding insertSpaces widths style : Value}
    {fixes : Except Failure FixSet} {o : Options} :
    ofValues indent pageWidth lineEnding insertSpaces widths style fixes = .ok o ↔
      indent = .int (.ofNat o.indent) ∧ pageWidth = .int (.ofNat o.pageWidth) ∧
      checkLineEnding lineEnding = .ok o.lineEnding ∧ insertSpaces = .bool o.insertSpaces ∧
      widths = .widths o.widths ∧ style = .style o.style ∧ fixes = .ok o.fixes := by
  simp only [ofValues, Except.bind_eq_ok, checkWidth_eq_ok_iff, checkPageWidth_eq_ok_iff,
    checkInsertSpaces_eq_ok_iff, checkWidths_eq_ok_iff, checkStyle_eq_ok_iff]
  constructor
  · rintro ⟨_, rfl, ⟨p, hp⟩, rfl, _, hline, _, rfl, _, rfl, _, rfl, _, hfixes, ho⟩
    cases ho
    exact ⟨rfl, rfl, hline, rfl, rfl, rfl, hfixes⟩
  · rintro ⟨rfl, rfl, hline, rfl, rfl, rfl, hfixes⟩
    exact ⟨_, rfl, ⟨o.pageWidth, o.pageWidth_pos⟩, rfl, _, hline, _, rfl, _, rfl, _, rfl, _, hfixes,
      rfl⟩

namespace Draft

theorem outcome_freeze (d : Draft) :
    d.freeze.outcome = (do
      let base ← d.baseStyle.outcome
      let style ← d.style.resolve base
      let _ ← labelOf d.profile
      let widths ← d.widths.freeze
      Options.ofValues (d.indent.orElse (.int Options.default.indent))
        (d.pageWidth.orElse (.int Options.default.pageWidth)) d.lineEnding
        (d.insertSpaces.orElse (.bool Options.default.insertSpaces)) (.widths widths)
        (.style style) (.ok (d.fixes.getD .empty))) := by
  simp only [freeze, Report.outcome_bind, Report.outcome_ofExcept, Report.outcome_trace,
    Report.outcome_debug]
  congr 1
  funext base
  congr 1
  funext style
  congr 1
  funext label
  change (d.widths.freeze >>= _) = _
  congr 1
  funext widths
  exact bind_pure _

theorem freeze_eq_ok_iff {d : Draft} {o : Options} :
    d.freeze.outcome = .ok o ↔
      (∃ base, d.baseStyle.outcome = .ok base ∧ base.thaw.merge d.style = o.style.thaw) ∧
      (∃ label, labelOf d.profile = .ok label) ∧
      Widths.default.thaw.merge d.widths = o.widths.thaw ∧
      d.indent.orElse (.int Options.default.indent) = .int (.ofNat o.indent) ∧
      d.pageWidth.orElse (.int Options.default.pageWidth) = .int (.ofNat o.pageWidth) ∧
      Options.checkLineEnding d.lineEnding = .ok o.lineEnding ∧
      d.insertSpaces.orElse (.bool Options.default.insertSpaces) = .bool o.insertSpaces ∧
      d.fixes.getD .empty = o.fixes := by
  simp only [outcome_freeze, Except.bind_eq_ok, Options.ofValues_eq_ok_iff, Value.widths.injEq,
    Value.style.injEq, Except.ok.injEq, Widths.Draft.freeze, Widths.Draft.resolve_eq_ok_iff,
    Style.Draft.resolve_eq_ok_iff]
  constructor
  · rintro ⟨base, hbase, s, hs, label, hlabel, w, hw, hi, hp, hl, hb, rfl, rfl, hf⟩
    exact ⟨⟨base, hbase, hs⟩, ⟨label, hlabel⟩, hw, hi, hp, hl, hb, hf⟩
  · rintro ⟨⟨base, hbase, hs⟩, ⟨label, hlabel⟩, hw, hi, hp, hl, hb, hf⟩
    exact ⟨base, hbase, _, hs, label, hlabel, _, hw, hi, hp, hl, hb, rfl, rfl, hf⟩

end Draft

end FormatSettings
