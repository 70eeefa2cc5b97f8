import FormatSettings.Proofs.CommandLine.Precedence
import FormatSettings.Proofs.CommandLine.Printing
import FormatSettings.Proofs.Draft.Validity
import FormatSettings.Proofs.Toml.Failing

namespace FormatSettings

def Text.IsTooLong (i : Int) : Prop :=
  withinDigitLimit i = false

open Text (IsTooLong withinDigitLimit)

theorem Text.not_isTooLong_iff {i : Int} : ¬ IsTooLong i ↔ withinDigitLimit i = true := by
  rw [IsTooLong, Bool.not_eq_false]

def firstRefused? (numbers : List (Int × Int)) : Option Int :=
  (numbers.find? fun n => n.2 < n.1).map Prod.snd

theorem firstRefused?_eq_none_iff {numbers : List (Int × Int)} :
    firstRefused? numbers = none ↔ ∀ n ∈ numbers, n.1 ≤ n.2 := by
  simp [firstRefused?]

namespace CommandLine.Given

open Config

def numberOver (g : Given) (layers : List Table) (o : ConfigOption) (name key : String)
    (missing : Nat) : Int :=
  ((g.integer? o).or (lastOf layers (intIn? name key))).getD missing

def numbersOver (g : Given) (layers : List Table) : List (Int × Int) :=
  [(0, g.numberOver layers .blockIndent Key.indent Key.block Widths.default.block),
   (0, g.numberOver layers .cascadeIndent Key.indent Key.cascade Widths.default.cascade),
   (0, g.numberOver layers .expressionIndent Key.indent Key.expression Widths.default.expression),
   (0, g.numberOver layers .constructorInitializerIndent Key.indent Key.constructorInitializer
     Widths.default.constructorInitializer),
   (0, g.numberOver layers .indent Key.formatting Key.indent Options.default.indent),
   (1, g.numberOver layers .pageWidth Key.formatting Key.pageWidth Options.default.pageWidth)]

variable {g : Given} {layers : List Table} {sources : List Value} {profile : Option Profile}
  {fixes : Option FixSet}

def draftOver (g : Given) (layers : List Table) (sources : List Value) (profile : Option Profile)
    (fixes : Option FixSet) : Draft :=
  (lastDraft layers sources).patched g.arguments (Value.ofOption .profile profile) fixes

theorem indent_draftOver :
    (g.draftOver layers sources profile fixes).indent.orElse (.int Options.default.indent) =
      .int (g.numberOver layers .indent Key.formatting Key.indent Options.default.indent) :=
  indent_patched

theorem pageWidth_draftOver :
    (g.draftOver layers sources profile fixes).pageWidth.orElse (.int Options.default.pageWidth) =
      .int (g.numberOver layers .pageWidth Key.formatting Key.pageWidth Options.default.pageWidth) :=
  pageWidth_patched

theorem widths_freeze_draftOver :
    (g.draftOver layers sources profile fixes).widths.freeze =
      Widths.ofValues
        (.int (g.numberOver layers .blockIndent Key.indent Key.block Widths.default.block))
        (.int (g.numberOver layers .cascadeIndent Key.indent Key.cascade Widths.default.cascade))
        (.int (g.numberOver layers .expressionIndent Key.indent Key.expression
          Widths.default.expression))
        (.int (g.numberOver layers .constructorInitializerIndent Key.indent
          Key.constructorInitializer Widths.default.constructorInitializer)) := by
  have h : (Widths.default.thaw.merge (g.draftOver layers sources profile fixes).widths).toTable =
      g.widthsOver layers := widths_patched
  simp only [Widths.Draft.toTable, widthsOver, List.cons.injEq, Prod.mk.injEq, true_and,
    and_true] at h
  obtain ⟨hblock, hcascade, hexpression, hinitializer⟩ := h
  change Widths.ofValues (Widths.default.thaw.merge _).block (Widths.default.thaw.merge _).cascade
    (Widths.default.thaw.merge _).expression
    (Widths.default.thaw.merge _).constructorInitializer = _
  rw [hblock, hcascade, hexpression, hinitializer]
  rfl

theorem style_resolve_lastDraft (layers : List Table) (sources : List Value) (base : Style) :
    ∃ style, (lastDraft layers sources).style.resolve base = .ok style := by
  have hflag (b? : Option Bool) : (Value.ofOption .bool b?).IsFlag := by
    cases b? with
    | none => exact .inl rfl
    | some b => exact .inr ⟨b, rfl⟩
  have hflags : ∀ v ∈ (lastDraft layers sources).style.values, v.IsFlag := by
    simp only [lastDraft, Style.Draft.values, List.forall_mem_cons]
    exact ⟨hflag _, hflag _, hflag _, hflag _, hflag _, List.forall_mem_nil _⟩
  obtain ⟨style, hstyle⟩ := Style.Draft.valid_iff.mp hflags
  exact ⟨style, Style.Draft.resolve_eq_ok_iff.mpr hstyle⟩

theorem numbersOver_of_freeze {o : Options}
    (h : (g.draftOver layers sources profile fixes).freeze.outcome = .ok o) :
    g.numbersOver layers =
      [(0, .ofNat o.widths.block), (0, .ofNat o.widths.cascade), (0, .ofNat o.widths.expression),
       (0, .ofNat o.widths.constructorInitializer), (0, .ofNat o.indent),
       (1, .ofNat o.pageWidth)] := by
  obtain ⟨-, -, hwidths, hindent, hpageWidth, -⟩ := Draft.freeze_eq_ok_iff.mp h
  have hwidths := widths_freeze_draftOver.symm.trans (Widths.Draft.resolve_eq_ok_iff.mpr hwidths)
  have hwidths := Widths.ofValues_eq_ok_iff.mp hwidths
  have hindent := indent_draftOver.symm.trans hindent
  have hpageWidth := pageWidth_draftOver.symm.trans hpageWidth
  simp only [Widths.thaw, Widths.Draft.mk.injEq, Value.int.injEq] at hwidths
  obtain ⟨hblock, hcascade, hexpression, hinitializer⟩ := hwidths
  rw [numbersOver, hblock, hcascade, hexpression, hinitializer]
  rw [Value.int.inj hindent, Value.int.inj hpageWidth]
  rfl

theorem freeze_of_not_refused (sources : List Value) (profile : Option Profile)
    (fixes : Option FixSet) (h : firstRefused? (g.numbersOver layers) = none) :
    ∃ o, (g.draftOver layers sources profile fixes).freeze.outcome = .ok o := by
  have hnumbers := firstRefused?_eq_none_iff.mp h
  simp only [numbersOver, List.forall_mem_cons] at hnumbers
  obtain ⟨hblock, hcascade, hexpression, hinitializer, hindent, hpageWidth, -⟩ := hnumbers
  -- None is refused, so all are natural numbers, which the checks of the draft accept.
  obtain ⟨block, hblock⟩ := Int.eq_ofNat_of_zero_le hblock
  obtain ⟨cascade, hcascade⟩ := Int.eq_ofNat_of_zero_le hcascade
  obtain ⟨expression, hexpression⟩ := Int.eq_ofNat_of_zero_le hexpression
  obtain ⟨initializer, hinitializer⟩ := Int.eq_ofNat_of_zero_le hinitializer
  obtain ⟨indent, hindent⟩ := Int.eq_ofNat_of_zero_le hindent
  obtain ⟨pageWidth, hpage⟩ := Int.eq_ofNat_of_zero_le (Int.le_trans (by decide) hpageWidth)
  obtain ⟨style, hstyle⟩ := style_resolve_lastDraft layers sources Style.default
  have hwidths : (g.draftOver layers sources profile fixes).widths.freeze =
      .ok ⟨block, cascade, expression, initializer⟩ := by
    rw [widths_freeze_draftOver, hblock, hcascade, hexpression, hinitializer]
    rfl
  have hprofile : (g.draftOver layers sources profile fixes).profile =
      Value.ofOption .profile profile := rfl
  refine Draft.freeze_of_isValid hprofile {
    indent := ?_
    pageWidth := ?_
    lineEnding := ?_
    insertSpaces := ?_
    widths := Widths.Draft.valid_iff.mpr ⟨_, Widths.Draft.resolve_eq_ok_iff.mp hwidths⟩
    style := Style.Draft.valid_iff.mpr ⟨_, Style.Draft.resolve_eq_ok_iff.mp hstyle⟩ }
  · refine (Value.isIntFrom_iff (Nat.zero_le Options.default.indent)).mpr ?_
    exact ⟨indent, indent_draftOver.trans (congrArg Value.int hindent), Nat.zero_le _⟩
  · refine (Value.isIntFrom_iff Options.default.pageWidth_pos).mpr ?_
    exact ⟨pageWidth, pageWidth_draftOver.trans (congrArg Value.int hpage), by omega⟩
  · rw [draftOver, Draft.patched, lineEndingAfter_arguments]
    cases g.lineEndingOver layers with
    | none => exact .inl rfl
    | some e => exact .inr ⟨e, rfl⟩
  · exact (Value.isFlag_iff _ _).mpr ⟨_, insertSpaces_patched⟩

end CommandLine.Given

namespace CommandLine

theorem documentText_of_storable {o : Options} (h : o.Storable) (shared : Bool) :
    ∃ text, documentText shared o = .ok text := by
  have hfinish : ∃ text,
      (if shared then Toml.nest (String.ofList (Toml.sheetChars (o.sheets h))) sharedSection
        else .ok (String.ofList (Toml.sheetChars (o.sheets h)))) = .ok text := by
    cases shared with
    | false => exact ⟨_, rfl⟩
    | true =>
      let tool : Toml.Word := { text := Key.tool }
      let program : Toml.Word := { text := Key.program }
      have hnest : Toml.nest (String.ofList (Toml.sheetChars (o.sheets h))) sharedSection =
          .ok (String.ofList (Toml.nestedChars [tool] program (o.sheets h))) :=
        Toml.nest_sheetChars (by decide +kernel) (o.nodup_sheets h)
      exact ⟨_, hnest⟩
  obtain ⟨text, htext⟩ := hfinish
  refine ⟨text, Except.bind_eq_ok.mpr ⟨_, o.toTable_eq_sheets h, ?_⟩⟩
  exact Except.bind_eq_ok.mpr ⟨_, Toml.render_sheets _, htext⟩

theorem escapes_documentText_iff {o : Options} (hothers : o.fixes.others = []) (shared : Bool) :
    Escapes (documentText shared o) ↔ ∃ n ∈ o.numbers, IsTooLong (.ofNat n) := by
  have htable := Options.toTable_of_known hothers
  by_cases hlimit : ∀ n ∈ o.numbers, withinDigitLimit (.ofNat n) = true
  · obtain ⟨text, htext⟩ := documentText_of_storable ⟨hothers, hlimit⟩ shared
    rw [htext]
    refine iff_of_false (not_escapes_ok _) ?_
    rintro ⟨n, hn, hlong⟩
    rw [IsTooLong, hlimit n hn] at hlong
    cases hlong
  · have hlong : ∃ n ∈ o.numbers, IsTooLong (.ofNat n) := by
      by_contra hnone
      exact hlimit fun n hn => Text.not_isTooLong_iff.mp fun h => hnone ⟨n, hn, h⟩
    have hrender : Escapes (Toml.render o.exported) := by
      refine (Toml.failsOnly_render _).escapes_iff.mpr ?_
      rintro ⟨text, htext⟩
      exact hlimit fun n hn => o.withinDigitLimit_of_render htable htext hn
    refine iff_of_true ?_ hlong
    exact escapes_bind.mpr (Or.inr ⟨_, htable, escapes_bind.mpr (Or.inl hrender)⟩)

end CommandLine

end FormatSettings
