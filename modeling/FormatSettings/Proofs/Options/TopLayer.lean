import FormatSettings.Proofs.Draft.Validity
import FormatSettings.Proofs.Options.Reloading

namespace FormatSettings.Options

variable {o : Options} {b : Draft} {profile : Option Profile}

def lineEndingOver (o : Options) (b : Draft) : Value :=
  (Value.ofOption (fun n => .text n.ending.newline) o.lineEnding).orElse b.lineEnding

theorem freeze_merge_eq_ok (h : b.profile = Value.ofOption .profile profile) (file : Option String)
    {l : Option Newline} (hl : checkLineEnding (o.lineEndingOver b) = .ok l) :
    (b.merge (o.savedDraft file)).freeze.outcome = .ok { o.reread with lineEnding := l } := by
  have hprofile : (b.merge (o.savedDraft file)).profile = Value.ofOption .profile profile := h
  apply Draft.freeze_eq_ok_iff.mpr
  refine ⟨⟨_, Draft.outcome_baseStyle hprofile, rfl⟩, ?_, rfl, rfl, rfl, hl, rfl, rfl⟩
  rw [hprofile]
  exact Draft.labelOf_ofOption profile

theorem freeze_merge_eq_error (h : b.profile = Value.ofOption .profile profile)
    (file : Option String) {f : Failure} (hl : checkLineEnding (o.lineEndingOver b) = .error f) :
    (b.merge (o.savedDraft file)).freeze.outcome = .error f := by
  have hprofile : (b.merge (o.savedDraft file)).profile = Value.ofOption .profile profile := h
  obtain ⟨label, hlabel⟩ := Draft.labelOf_ofOption profile
  have hstyle : (b.merge (o.savedDraft file)).style.resolve (Style.under profile) = .ok o.style :=
    Style.Draft.resolve_eq_ok_iff.mpr rfl
  have hwidths : (b.merge (o.savedDraft file)).widths.freeze = .ok o.widths :=
    Widths.Draft.resolve_eq_ok_iff.mpr rfl
  have hpage : checkPageWidth (.int (.ofNat o.pageWidth)) = .ok ⟨o.pageWidth, o.pageWidth_pos⟩ :=
    checkPageWidth_eq_ok_iff.mpr rfl
  -- Every check before that of the line ending is made of a setting of the export, and passes.
  rw [Draft.outcome_freeze, Draft.outcome_baseStyle hprofile, hprofile, hlabel, hwidths]
  refine Except.bind_eq_error.mpr (.inr ⟨_, rfl, ?_⟩)
  refine Except.bind_eq_error.mpr (.inr ⟨_, hstyle, ?_⟩)
  refine Except.bind_eq_error.mpr (.inr ⟨_, rfl, ?_⟩)
  refine Except.bind_eq_error.mpr (.inr ⟨_, rfl, ?_⟩)
  refine Except.bind_eq_error.mpr (.inr ⟨_, rfl, ?_⟩)
  refine Except.bind_eq_error.mpr (.inr ⟨_, hpage, ?_⟩)
  exact Except.bind_eq_error.mpr (.inl hl)

theorem same_reread_over (h : o.fixes.others = []) (l : Option Newline) :
    ({ o.reread with lineEnding := l } : Options).same { o with lineEnding := l } = true := by
  simp [same, reread, FixSet.same_ofFixes h]

/-- The export of options is read as a draft that freezes to these options again, also over any other
draft, whatever that one holds. If the options have no line ending, that of the draft below counts, and
it is the one setting of that draft which is still checked. -/
theorem export_on_top (o : Options) (ho : o.fixes.others = []) (b : Draft) (profile : Option Profile)
    (hb : b.profile = Value.ofOption .profile profile) (file : Option String) :
    ∃ t upper, o.toTable = .ok t ∧ (Draft.ofTable t file).outcome = .ok upper ∧
      (∃ r, upper.freeze.outcome = .ok r ∧ r.same o = true) ∧
      (o.lineEnding ≠ none → ∃ r, (b.merge upper).freeze.outcome = .ok r ∧ r.same o = true) ∧
      (o.lineEnding = none →
        (b.lineEnding.IsNewline → ∃ r, (b.merge upper).freeze.outcome = .ok r ∧
          r.same { o with lineEnding := r.lineEnding } = true ∧
          r.lineEnding.map (·.ending.newline) = b.lineEnding.asText?) ∧
        (¬ b.lineEnding.IsNewline → (b.merge upper).freeze.outcome =
          .error (.ofOption (.unknownLineEnding b.lineEnding)))) := by
  refine ⟨o.exported, o.savedDraft file, toTable_of_known ho, o.ofTable_exported file, ?_, ?_, ?_⟩
  · exact ⟨_, o.freeze_savedDraft file, same_reread ho⟩
  · intro hline
    obtain ⟨n, hn⟩ := Option.ne_none_iff_exists'.mp hline
    have hcheck : checkLineEnding (o.lineEndingOver b) = .ok o.reread.lineEnding := by
      rw [lineEndingOver, reread, hn]
      exact checkLineEnding_newline (some n.ending)
    exact ⟨_, freeze_merge_eq_ok hb file hcheck, same_reread ho⟩
  · intro hline
    have hover : o.lineEndingOver b = b.lineEnding := by
      rw [lineEndingOver, hline]
      rfl
    constructor
    · intro hvalid
      obtain ⟨l, hl⟩ := checkLineEnding_of_isNewline hvalid
      have hkept := (checkLineEnding_eq_ok hl).2
      rw [← hover] at hl
      exact ⟨_, freeze_merge_eq_ok hb file hl, same_reread_over ho l, hkept⟩
    · intro hinvalid
      have hl := checkLineEnding_of_not_isNewline hinvalid
      exact freeze_merge_eq_error hb file (hover.symm ▸ hl)

def faultyDraft : Draft where
  profile := .profile .expanded
  indent := .int (-3)
  pageWidth := .text "wide"
  lineEnding := .text "\r\n"
  insertSpaces := .int 1
  widths := { block := .bool true }
  style := { bracesOnEnum := .list [] }

theorem export_on_top_faultyDraft :
    ∃ t upper, default.toTable = .ok t ∧ (Draft.ofTable t none).outcome = .ok upper ∧
      ∃ r, (faultyDraft.merge upper).freeze.outcome = .ok r ∧
        r.same { default with lineEnding := r.lineEnding } = true ∧
        r.lineEnding.map (·.ending.newline) = some "\r\n" := by
  obtain ⟨t, upper, ht, hupper, -, -, hline⟩ :=
    export_on_top default rfl faultyDraft (some .expanded) rfl none
  exact ⟨t, upper, ht, hupper, (hline rfl).1 (.inr ⟨.crlf, rfl⟩)⟩

end FormatSettings.Options
