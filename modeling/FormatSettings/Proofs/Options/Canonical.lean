import FormatSettings.Proofs.Options.Reloading
import FormatSettings.Proofs.Options.Replacing

namespace FormatSettings

open Toml

theorem LineEnding.token_injective : Function.Injective token := by
  intro e f h
  cases e <;> cases f <;> first | rfl | exact absurd h (by decide)

theorem Widths.toTable_injective : Function.Injective toTable := by
  rintro ⟨b, c, e, i⟩ ⟨b', c', e', i'⟩ h
  simpa [toTable, Int.ofNat_inj] using h

theorem Style.toTable_injective : Function.Injective toTable := by
  rintro ⟨b, c, e, t, i⟩ ⟨b', c', e', t', i'⟩ h
  simpa [toTable] using h

namespace Options

def savedText (o : Options) : Except Failure String :=
  o.toTable >>= render

variable {o p : Options}

theorem exportedFormatting_eq_iff : o.exportedFormatting = p.exportedFormatting ↔
    o.indent = p.indent ∧ o.pageWidth = p.pageWidth ∧ o.insertSpaces = p.insertSpaces ∧
      o.fixes.fixes = p.fixes.fixes ∧
      o.lineEnding.map Newline.ending = p.lineEnding.map Newline.ending := by
  have hkey : Function.Injective fun f : Fix => Value.text f.key := fun f g h =>
    Fix.key_injective (Value.text.inj h)
  have hfixes (fs gs : List Fix) :
      (fs.map fun f => Value.text f.key) = gs.map (fun f => Value.text f.key) ↔ fs = gs :=
    List.map_inj_right hkey
  have hline (l m : Option Newline) :
      l.toList.map (fun n => (Key.lineEnding, Value.text n.ending.token)) =
          m.toList.map (fun n => (Key.lineEnding, Value.text n.ending.token)) ↔
        l.map Newline.ending = m.map Newline.ending := by
    cases l <;> cases m <;> simp [LineEnding.token_injective.eq_iff]
  simp only [exportedFormatting, List.cons_append, List.nil_append, List.cons.injEq, Prod.mk.injEq,
    Value.int.injEq, Int.ofNat.injEq, Value.bool.injEq, Value.list.injEq, true_and, hfixes, hline]

theorem exported_eq_iff (ho : o.fixes.others = []) (hp : p.fixes.others = []) :
    o.exported = p.exported ↔ o.same p = true := by
  simp only [exported, same, List.cons.injEq, Prod.mk.injEq, Value.table.injEq, true_and, and_true,
    exportedFormatting_eq_iff, Widths.toTable_injective.eq_iff, Style.toTable_injective.eq_iff,
    Bool.and_eq_true, beq_iff_eq, FixSet.same_iff ho hp]
  tauto

theorem savedText_of_storable (h : o.Storable) :
    o.savedText = .ok (String.ofList (sheetChars (o.sheets h))) := by
  rw [savedText, o.toTable_eq_sheets h]
  exact render_sheets _

theorem exported_eq_of_sheetChars (ho : o.Storable) (hp : p.Storable)
    (h : sheetChars (o.sheets ho) = sheetChars (p.sheets hp)) : o.exported = p.exported := by
  have hread := parse?_sheetChars (o.nodup_sheets ho)
  rw [h, parse?_sheetChars (p.nodup_sheets hp), Option.some.injEq, o.sheetTable_sheets ho,
    p.sheetTable_sheets hp] at hread
  exact hread.symm

theorem savedText_of_exported (ho : o.fixes.others = []) (hp : p.fixes.others = [])
    (h : o.exported = p.exported) : o.savedText = p.savedText := by
  rw [savedText, savedText, toTable_of_known ho, toTable_of_known hp, h]

/-- Equal options are saved as the same text and others are not. So the text depends neither on the order of
the fixes that were given, nor on how often each was or what held them, nor on whether the line ending was
given as such or as its newline sequence. -/
theorem saved_text_is_canonical :
    (∀ o p : Options, o.Storable → p.Storable →
      ∃ text text', o.savedText = .ok text ∧ p.savedText = .ok text' ∧
        (text = text' ↔ o.same p = true)) ∧
    (∀ (a b : Arguments) (v w : Value) (fs gs : List Fix),
      a.Replaces parameters Key.fixes v w b → v.elements? = some (fs.map .fix) →
      w.elements? = some (gs.map .fix) → (∀ f, f ∈ fs ↔ f ∈ gs) →
        ofArguments a >>= savedText = ofArguments b >>= savedText) ∧
    ∀ (a b : Arguments) (e : LineEnding),
      a.Replaces parameters Key.lineEnding (.lineEnding e) (.text e.newline) b →
        ofArguments a >>= savedText = ofArguments b >>= savedText := by
  refine ⟨fun o p ho hp => ?_, fun a b v w fs gs hreplaces hv hw hsame => ?_,
    fun a b e hreplaces => ?_⟩
  · refine ⟨_, _, savedText_of_storable ho, savedText_of_storable hp, ?_⟩
    rw [← exported_eq_iff ho.others hp.others, String.ofList_inj]
    constructor
    · exact exported_eq_of_sheetChars ho hp
    · intro h
      have htext := savedText_of_exported ho.others hp.others h
      rw [savedText_of_storable ho, savedText_of_storable hp, Except.ok.injEq] at htext
      exact String.ofList_inj.mp htext
  · obtain ⟨t, l, ha, hb⟩ := ofArguments_of_replaces_fixes hreplaces
    -- The set has its fixes in the order of their keys, whatever it was built from.
    rw [ha, hb, ofBound, ofBound, FixSet.ofValue?_fixes hv, FixSet.ofValue?_fixes hw,
      FixSet.ofFixes_congr hsame]
  · obtain ⟨t, fixes, ha, hb⟩ := ofArguments_of_replaces_lineEnding hreplaces
    have hnamed : checkLineEnding (.lineEnding e) = .ok (some ⟨e, true⟩) := rfl
    rw [ha, hb, ofBound_lineEnding hnamed, ofBound_lineEnding (checkLineEnding_text e), bind_assoc,
      bind_assoc]
    rfl

def wideArguments (lineEnding fixes : Value) : Arguments :=
  ⟨[.int 4, .int 100, lineEnding, fixes], []⟩

theorem wideArguments_bind (l f : Value) : (wideArguments l f).bind parameters =
    .ok [(Key.indent, .int 4), (Key.pageWidth, .int 100), (Key.lineEnding, l), (Key.fixes, f)] := rfl

theorem wideArguments_replaces_fixes (l v w : Value) :
    (wideArguments l v).Replaces parameters Key.fixes v w (wideArguments l w) := by
  refine ⟨_, _, wideArguments_bind l v, wideArguments_bind l w, rfl, rfl, fun name _ hname => ?_⟩
  simp [List.lookup_cons, beq_eq_false_iff_ne.mpr hname]

theorem wideArguments_replaces_lineEnding (f v w : Value) :
    (wideArguments v f).Replaces parameters Key.lineEnding v w (wideArguments w f) := by
  refine ⟨_, _, wideArguments_bind v f, wideArguments_bind w f, rfl, rfl, fun name _ hname => ?_⟩
  simp [List.lookup_cons, beq_eq_false_iff_ne.mpr hname]

theorem saved_text_is_canonical_wide :
    ofArguments (wideArguments .null (.list [.fix .optionalNew, .fix .docComments, .fix .optionalNew])) >>=
        savedText =
      ofArguments (wideArguments .null (.set true [.fix .docComments, .fix .optionalNew])) >>=
        savedText ∧
    ofArguments (wideArguments (.lineEnding .crlf) (.tuple [])) >>= savedText =
      ofArguments (wideArguments (.text "\r\n") (.tuple [])) >>= savedText ∧
    ∃ text text', default.savedText = .ok text ∧
      savedText { default with indent := 4 } = .ok text' ∧ text ≠ text' := by
  obtain ⟨htexts, hfixes, hline⟩ := saved_text_is_canonical
  refine ⟨?_, ?_, ?_⟩
  · exact hfixes _ _ _ _ [.optionalNew, .docComments, .optionalNew] [.docComments, .optionalNew]
      (wideArguments_replaces_fixes _ _ _) rfl rfl fun f => by cases f <;> decide
  · exact hline _ _ .crlf (wideArguments_replaces_lineEnding _ _ _)
  · obtain ⟨text, text', htext, htext', hiff⟩ :=
      htexts default { default with indent := 4 } ⟨rfl, by decide +kernel⟩ ⟨rfl, by decide +kernel⟩
    refine ⟨text, text', htext, htext', fun h => ?_⟩
    exact absurd (hiff.mp h) (by decide)

end Options

end FormatSettings
