import FormatSettings.Proofs.Draft.Validity
import FormatSettings.Proofs.Options.Exported
import FormatSettings.Proofs.Options.Replacing
import FormatSettings.Proofs.Text.UpperCase

namespace FormatSettings.LineEnding

/-- A text is the token of a line ending, up to the case of letters of ASCII and the blanks around it. -/
def IsNamed (e : LineEnding) (s : String) : Prop :=
  (Text.strip s.toList).map Char.toLower = e.token.toList

instance (e : LineEnding) (s : String) : Decidable (e.IsNamed s) :=
  inferInstanceAs (Decidable (_ = _))

variable {e f : LineEnding} {s raw : String}

theorem all_ascii_name (e : LineEnding) :
    (e.name.toList.all fun c => decide (c.toNat < 128)) = true := by
  cases e <;> decide

theorem isRaised_name (e : LineEnding) : Text.IsRaised e.name.toList where
  ascii := by simpa only [List.all_eq_true, decide_eq_true_eq] using e.all_ascii_name
  noDotless := by cases e <;> decide
  noLongS := by cases e <;> decide
  noExpansion := by cases e <;> decide +kernel

theorem map_toUpper_name (e : LineEnding) : e.name.toList.map Char.toUpper = e.name.toList := by
  cases e <;> decide

theorem map_toLower_name (e : LineEnding) : e.name.toList.map Char.toLower = e.token.toList := by
  cases e <;> decide

theorem upper_eq_name_iff : Text.upper (Text.strip s.toList) = e.name.toList ↔ e.IsNamed s := by
  rw [e.isRaised_name.upper_eq_iff e.map_toUpper_name, map_toLower_name, IsNamed]

theorem find?_name (e : LineEnding) : all.find? (·.name == e.name) = some e := by
  cases e <;> decide

theorem ofName?_eq_some_iff : ofName? s = some e ↔ e.IsNamed s := by
  rw [← upper_eq_name_iff, ofName?]
  constructor
  · intro h
    have hname := List.find?_some h
    simp only [beq_iff_eq] at hname
    rw [hname, String.toList_ofList]
  · intro h
    rw [h, String.ofList_toList]
    exact e.find?_name

theorem not_isNamed_newline (e f : LineEnding) : ¬ f.IsNamed e.newline := by
  cases e <;> cases f <;> decide

theorem selected?_text_eq_some_iff : selected? (.text s) = some e ↔ s = e.newline ∨ e.IsNamed s := by
  rw [selected?, ofNewlineValue?, ofNameValue?, Value.asText?, Option.bind_some, Option.bind_some,
    Option.or_eq_some_iff, ofNewline?_eq_some_iff, ofName?_eq_some_iff]
  refine or_congr_right (and_iff_right_of_imp fun hnamed => ?_)
  apply Option.eq_none_iff_forall_ne_some.mpr
  intro f hf
  rw [ofNewline?_eq_some_iff.mp hf] at hnamed
  exact f.not_isNamed_newline e hnamed

theorem ofToken_eq_warning (h : ∀ e : LineEnding, s ≠ e.newline ∧ ¬ e.IsNamed s) (source : String) :
    ofToken (.text s) source = ⟨[⟨.warning, unknownText (.text s) source⟩], .ok none⟩ := by
  have hnone : selected? (.text s) = none := by
    apply Option.eq_none_iff_forall_ne_some.mpr
    intro e he
    rcases selected?_text_eq_some_iff.mp he with hnewline | hnamed
    · exact (h e).1 hnewline
    · exact (h e).2 hnamed
  rw [ofToken_eq (v := .text s) nofun, hnone]

theorem notices_ofToken (h : selected? (.text s) = some e) (source : String) :
    (ofToken (.text s) source).notices = [] := by
  rw [ofToken_eq (v := .text s) nofun, h]
  rfl

theorem valueOf_exported {o : Options} {n : Newline} (h : o.lineEnding = some n) :
    (o.exported.tableAt Key.formatting).valueOf Key.lineEnding = .text n.ending.token := by
  change o.exportedFormatting.valueOf Key.lineEnding = _
  rw [Options.exportedFormatting, h]
  rfl

/-- A line ending is selected by its newline sequence and by its token, up to the case of letters and the
blanks around it, and by nothing else; no text is read in both ways. Any other text selects none, with one
warning. A line ending that is selected, without one, can be set in the place of none, and is exported as its
token. -/
theorem selected_by_newline_or_token (raw source : String) :
    (∀ e : LineEnding, (ofToken (.text raw) source).outcome = .ok (some e) ↔
      raw = e.newline ∨ e.IsNamed raw) ∧
    (∀ e f, ofNewline? raw = some e → ofName? raw = some f → e = f) ∧
    ((∀ e : LineEnding, raw ≠ e.newline ∧ ¬ e.IsNamed raw) →
      ofToken (.text raw) source = ⟨[⟨.warning, unknownText (.text raw) source⟩], .ok none⟩) ∧
    ∀ e : LineEnding, (ofToken (.text raw) source).outcome = .ok (some e) →
      (ofToken (.text raw) source).notices = [] ∧
      ∀ (a b : Arguments) (o : Options), Options.ofArguments a = .ok o →
        a.Replaces Options.parameters Key.lineEnding .null (.text e.newline) b →
        ∃ p, Options.ofArguments b = .ok p ∧ p = { o with lineEnding := some ⟨e, false⟩ } ∧
          (o.fixes.others = [] → ∃ t, p.toTable = .ok t ∧
            (t.tableAt Key.formatting).valueOf Key.lineEnding = .text e.token) := by
  have hselected (e : LineEnding) :
      (ofToken (.text raw) source).outcome = .ok (some e) ↔ selected? (.text raw) = some e := by
    rw [outcome_ofToken, Except.ok.injEq]
  refine ⟨fun e => ?_, fun e f he hf => ?_, fun h => ofToken_eq_warning h source, fun e he => ?_⟩
  · rw [hselected, selected?_text_eq_some_iff]
  · -- A sequence is blank and a token is not, so no text is both.
    have hnamed := ofName?_eq_some_iff.mp hf
    rw [ofNewline?_eq_some_iff.mp he] at hnamed
    exact absurd hnamed (e.not_isNamed_newline f)
  · refine ⟨notices_ofToken ((hselected e).mp he) source, fun a b o ho hreplaces => ?_⟩
    let p : Options := { o with lineEnding := some ⟨e, false⟩ }
    refine ⟨p, Options.ofArguments_newline ho hreplaces, rfl, fun hothers => ?_⟩
    exact ⟨p.exported, Options.toTable_of_known hothers, valueOf_exported (n := ⟨e, false⟩) rfl⟩

theorem selected_by_mixed_token :
    (ofToken (.text "\u3000CrLf\x1c") "").outcome = .ok (some .crlf) ∧
      (∃ p, Options.ofArguments ⟨[.int 4], [(Key.lineEnding, .text "\r\n")]⟩ = .ok p ∧
        ∃ t, p.toTable = .ok t ∧
          (t.tableAt Key.formatting).valueOf Key.lineEnding = .text "crlf") ∧
      (ofToken (.text "cr\ufb02") "").outcome.toOption = some none := by
  obtain ⟨hselects, -, -, haccepted⟩ := selected_by_newline_or_token "\u3000CrLf\x1c" ""
  have hcrlf := (hselects .crlf).mpr (Or.inr (by decide +kernel))
  obtain ⟨-, haccepts⟩ := haccepted .crlf hcrlf
  have hreplaces : Arguments.Replaces Options.parameters Key.lineEnding .null (.text "\r\n")
      ⟨[.int 4], [(Key.lineEnding, .null)]⟩ ⟨[.int 4], [(Key.lineEnding, .text "\r\n")]⟩ := by
    refine ⟨[(Key.indent, .int 4), (Key.lineEnding, .null)],
      [(Key.indent, .int 4), (Key.lineEnding, .text "\r\n")], rfl, rfl, rfl, rfl, fun name _ hname => ?_⟩
    simp [List.lookup_cons, beq_eq_false_iff_ne.mpr hname]
  obtain ⟨p, hp, -, hexport⟩ := haccepts _ _ { Options.default with indent := 4 } rfl hreplaces
  obtain ⟨-, -, hunknown, -⟩ := selected_by_newline_or_token "cr\ufb02" ""
  refine ⟨hcrlf, ⟨p, hp, hexport rfl⟩, ?_⟩
  rw [hunknown fun e => by cases e <;> decide +kernel]
  rfl

end FormatSettings.LineEnding
