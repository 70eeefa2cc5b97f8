import FormatSettings.Proofs.CommandLine.Crashing
import Mathlib

/-!
The exit code of the command that prints settings, and what it prints. Conflicting flags and unknown
tokens count first, then the merged settings; only a run that succeeds prints anything.
-/

namespace FormatSettings

def Failure.IsNoUsage (f : Failure) : Prop :=
  ∀ fault, f ≠ .usage fault

theorem Failure.IsOption.isNoUsage {f : Failure} (h : f.IsOption) : f.IsNoUsage := by
  obtain ⟨fault, rfl⟩ := h
  nofun

theorem Draft.isNoUsage_freeze {d : Draft} {profile : Option Profile}
    (h : d.profile = Value.ofOption .profile profile) :
    FailsOnly Failure.IsNoUsage d.freeze.outcome := by
  intro f hf
  rcases (failsOnly_freeze h f hf).cases with hoption | ⟨rfl, -⟩
  · exact hoption.isNoUsage
  · nofun

theorem Profile.validate_cases (token : String) :
    (∃ fault, validate (.text token) = .error (.value fault)) ∨
      (parse? (.text token) = .ok none ∧
        validate (.text token) = .error (.usage (.unknownProfile (.text token)))) ∨
      ∃ p, parse? (.text token) = .ok (some p) ∧ validate (.text token) = .ok (some p) := by
  simp only [validate]
  cases parse? (.text token) with
  | error fault => exact .inl ⟨fault, rfl⟩
  | ok found =>
    cases found with
    | none => exact .inr (.inl ⟨rfl, rfl⟩)
    | some p => exact .inr (.inr ⟨p, rfl, rfl⟩)

theorem escapes_value {α : Type} (fault : ValueFault) :
    Escapes (.error (.value fault) : Except Failure α) :=
  escapes_error_iff.mpr nofun

namespace CommandLine

namespace Given

open Config

inductive NamesUnknown (g : Given) : Prop
  | profile {token : String} (htoken : g.last? .profile = some token)
      (hunknown : Profile.parse? (.text token) = .ok none)
  | fix {token : String} (htoken : token ∈ g.allOf .fix) (hunknown : Fix.parse? token = none)

variable {g : Given}

theorem tokensKnown_iff
    (hends : ¬ Escapes (Profile.validate (Value.ofOption .text (g.last? .profile)))) :
    g.TokensKnown ↔ ¬ g.NamesUnknown := by
  constructor
  · rintro hknown (⟨htoken, hunknown⟩ | ⟨htoken, hunknown⟩)
    · have hsome := hknown.profile (by rw [htoken]; rfl)
      rw [profile?, htoken, Option.bind_some, hunknown] at hsome
      cases hsome
    · have hsome := hknown.fix _ htoken
      rw [hunknown] at hsome
      cases hsome
  · intro h
    constructor
    · intro hgiven
      obtain ⟨token, htoken⟩ := Option.isSome_iff_exists.mp hgiven
      rw [htoken] at hends
      -- Only a numeral that cannot be read crashes, so what selects nothing is unknown.
      rcases Profile.validate_cases token with ⟨fault, hfails⟩ | ⟨hunknown, -⟩ | ⟨p, hparse, -⟩
      · change ¬ Escapes (Profile.validate (.text token)) at hends
        rw [hfails] at hends
        exact absurd (escapes_value fault) hends
      · exact absurd (.profile htoken hunknown) h
      · rw [profile?, htoken, Option.bind_some, hparse]
        rfl
    · intro token htoken
      rw [Option.isSome_iff_ne_none]
      exact fun hunknown => h (.fix htoken hunknown)

theorem freeze_refused_iff {layers : List Table} {sources : List Value} {profile : Option Profile}
    {fixes : Option FixSet}
    (hends : ¬ Escapes (g.draftOver layers sources profile fixes).freeze.outcome) :
    (∃ fault, (g.draftOver layers sources profile fixes).freeze.outcome = .error (.option fault)) ↔
      ∃ n ∈ g.numbersOver layers, n.2 < n.1 := by
  have hrange : firstRefused? (g.numbersOver layers) = none ↔
      ¬ ∃ n ∈ g.numbersOver layers, n.2 < n.1 := by
    rw [firstRefused?_eq_none_iff]
    simp
  constructor
  · rintro ⟨fault, hfault⟩
    by_contra hnone
    obtain ⟨o, ho⟩ := freeze_of_not_refused sources profile fixes (hrange.mpr hnone)
    cases ho.symm.trans hfault
  · intro hrefused
    cases hoptions : (g.draftOver layers sources profile fixes).freeze.outcome with
    | ok o =>
      -- Options have their numbers in range, so nothing was out of range before.
      refine absurd hrefused (hrange.mp (firstRefused?_eq_none_iff.mpr ?_))
      rw [numbersOver_of_freeze hoptions]
      have := o.pageWidth_pos
      simp only [List.forall_mem_cons, List.not_mem_nil, false_implies, implies_true, and_true,
        Int.ofNat_eq_natCast]
      omega
    | error f =>
      rw [hoptions] at hends
      have hrefusal : f.IsRefusal := not_not.mp (mt escapes_error_iff.mpr hends)
      cases hrefusal with
      | usage fault => exact absurd rfl (Draft.isNoUsage_freeze rfl _ hoptions fault)
      | option fault => exact ⟨fault, rfl⟩

section Host

variable [Host] {d : Disk}

def mergedDraft (g : Given) (d : Disk) : Except Failure Draft := do
  let merged ← g.merged d
  (merged.applyArguments g.arguments).outcome

def Refuses (g : Given) (d : Disk) : Prop :=
  ∃ draft fault, g.mergedDraft d = .ok draft ∧ draft.freeze.outcome = .error (.option fault)

theorem document_of_unknown (h : ¬ g.TokensKnown) (hends : ¬ Escapes (g.document d)) :
    ∃ fault, g.document d = .error (.usage fault) := by
  rw [escapes_document_of_unknown h] at hends
  rw [document_eq]
  -- The profile is checked before the fixes, so its token decides first.
  cases hprofile : Profile.validate (Value.ofOption .text (g.last? .profile)) with
  | error f =>
    rw [hprofile] at hends
    cases htoken : g.last? .profile with
    | none =>
      rw [htoken] at hprofile
      cases hprofile
    | some token =>
      rw [htoken] at hprofile
      rcases Profile.validate_cases token with ⟨fault, hfails⟩ | ⟨-, hfails⟩ | ⟨p, -, hvalid⟩
      · cases hfails.symm.trans hprofile
        exact absurd (escapes_value fault) hends
      · cases hfails.symm.trans hprofile
        exact ⟨_, rfl⟩
      · cases hvalid.symm.trans hprofile
  | ok profile =>
    cases hfixes : Fix.validate (.list ((g.allOf .fix).map .text)) with
    | error f =>
      obtain ⟨fault, rfl⟩ := Fix.failsOnly_validateAll _ f hfixes
      exact ⟨fault, rfl⟩
    | ok fixes => exact absurd (tokensKnown_of_validate hprofile hfixes) h

theorem mergedDraft_eq_ok {draft : Draft} (h : g.mergedDraft d = .ok draft) :
    ∃ files sources fixes, g.AreFilesOn d files ∧
      ((lastDraft (layersOf d files) sources).applyArguments g.arguments).outcome = .ok draft ∧
      draft = g.draftOver (layersOf d files) sources (g.profileOver (layersOf d files)) fixes ∧
      (fixes.getD .empty).others = [] := by
  obtain ⟨merged, hmerged, h⟩ := Except.bind_eq_ok.mp h
  obtain ⟨files, sources, hfiles, rfl⟩ := loadMerged_eq_ok hmerged
  obtain ⟨fixes, happly, hothers⟩ := g.applyArguments_lastDraft (layersOf d files) sources
  cases happly.symm.trans h
  exact ⟨files, sources, fixes, hfiles, happly, rfl, hothers⟩

theorem document_of_merged (h : g.TokensKnown) (d : Disk) :
    g.document d =
      g.mergedDraft d >>= fun draft => draft.freeze.outcome >>= documentText (g.isGiven .pyproject) := by
  rw [document_of_known h, mergedDraft, bind_assoc]
  rfl

theorem failsOnly_mergedDraft (g : Given) (d : Disk) :
    FailsOnly (¬ ·.IsRefusal) (g.mergedDraft d) := by
  refine .bind (failsOnly_loadMerged d _ _ _) fun merged hmerged => ?_
  obtain ⟨files, sources, -, rfl⟩ := loadMerged_eq_ok hmerged
  obtain ⟨fixes, happly, -⟩ := g.applyArguments_lastDraft (layersOf d files) sources
  rw [happly]
  exact .ok _

theorem document_cases (h : g.TokensKnown) (hends : ¬ Escapes (g.document d)) :
    ∃ draft, g.mergedDraft d = .ok draft ∧ ¬ Escapes draft.freeze.outcome ∧
      ((∃ fault, draft.freeze.outcome = .error (.option fault) ∧
          g.document d = .error (.option fault)) ∨
        ∃ o text, draft.freeze.outcome = .ok o ∧
          documentText (g.isGiven .pyproject) o = .ok text ∧ g.document d = .ok text) := by
  have hdocument := document_of_merged h d
  rw [hdocument, escapes_bind, not_or] at hends
  obtain ⟨hmerge, hprint⟩ := hends
  -- Without a crash the layers were read, and only freezing and writing are left.
  obtain ⟨draft, hdraft⟩ := not_not.mp (mt (failsOnly_mergedDraft g d).escapes_iff.mpr hmerge)
  have hprint := not_and.mp (not_exists.mp hprint draft) hdraft
  rw [hdraft] at hdocument
  rw [escapes_bind, not_or] at hprint
  obtain ⟨hfreeze, hwrite⟩ := hprint
  obtain ⟨files, sources, fixes, -, -, rfl, hothers⟩ := mergedDraft_eq_ok hdraft
  refine ⟨_, hdraft, hfreeze, ?_⟩
  cases hoptions : (g.draftOver _ sources _ fixes).freeze.outcome with
  | error f =>
    rw [hoptions] at hfreeze
    have hrefusal : f.IsRefusal := not_not.mp (mt escapes_error_iff.mpr hfreeze)
    cases hrefusal with
    | usage fault => exact absurd rfl (Draft.isNoUsage_freeze rfl _ hoptions fault)
    | option fault =>
      refine Or.inl ⟨fault, rfl, hdocument.trans ?_⟩
      change (Draft.freeze _).outcome >>= _ = _
      rw [hoptions]
      rfl
  | ok o =>
    -- Writing the document fails only for a number that is too long, and that would be a crash.
    have hknown : o.fixes.others = [] := by
      rw [← (Draft.freeze_eq_ok_iff.mp hoptions).2.2.2.2.2.2.2]
      exact hothers
    have hlimit : ∀ n ∈ o.numbers, Text.withinDigitLimit (.ofNat n) = true := by
      intro n hn
      refine Text.not_isTooLong_iff.mp fun hlong => hwrite ⟨o, hoptions, ?_⟩
      exact (escapes_documentText_iff hknown _).mpr ⟨n, hn, hlong⟩
    obtain ⟨text, htext⟩ := documentText_of_storable ⟨hknown, hlimit⟩ (g.isGiven .pyproject)
    refine Or.inr ⟨o, text, rfl, htext, hdocument.trans ?_⟩
    change (Draft.freeze _).outcome >>= _ = _
    rw [hoptions]
    exact htext

theorem refuses_iff_out_of_range {draft : Draft} (h : g.mergedDraft d = .ok draft)
    (hends : ¬ Escapes draft.freeze.outcome) :
    ∃ files, g.AreFilesOn d files ∧
      (g.Refuses d ↔ ∃ n ∈ g.numbersOver (layersOf d files), n.2 < n.1) := by
  obtain ⟨files, sources, fixes, hfiles, -, rfl, -⟩ := mergedDraft_eq_ok h
  refine ⟨files, hfiles, ?_⟩
  rw [← freeze_refused_iff hends]
  constructor
  · rintro ⟨draft, fault, hdraft, hfault⟩
    cases h.symm.trans hdraft
    exact ⟨fault, hfault⟩
  · rintro ⟨fault, hfault⟩
    exact ⟨_, fault, h, hfault⟩

theorem prints_of_freeze {draft : Draft} {o : Options} {text : String} (h : g.mergedDraft d = .ok draft)
    (ho : draft.freeze.outcome = .ok o) (htext : documentText (g.isGiven .pyproject) o = .ok text) :
    ∃ files, g.AreFilesOn d files ∧ Prints (markedBlock text)
      (if g.isGiven .pyproject then forProgram (g.settingsOver (layersOf d files))
        else g.settingsOver (layersOf d files)) := by
  obtain ⟨files, sources, fixes, hfiles, happly, -, -⟩ := mergedDraft_eq_ok h
  obtain ⟨htable, hothers⟩ := toTable_of_freeze happly ho
  exact ⟨files, hfiles, prints_of_documentText hothers htable htext⟩

end Host

end Given

/-- A text without the line breaks at its end, between the marker lines. -/
def IsMarked (text out : String) : Prop :=
  ∃ body breaks, text.toList = body ++ List.replicate breaks '\n' ∧ body.getLast? ≠ some '\n' ∧
    out = blockStart ++ "\n" ++ String.ofList body ++ "\n" ++ blockEnd ++ "\n"

theorem isMarked_markedBlock (text : String) : IsMarked text (markedBlock text) := by
  let isBreak : Char → Bool := (· == '\n')
  let breaks := text.toList.reverse.takeWhile isBreak
  let kept := text.toList.reverse.dropWhile isBreak
  have hbreaks : breaks = List.replicate breaks.length '\n' := by
    refine List.eq_replicate_of_mem fun c hc => ?_
    have hbreak : isBreak c = true := List.mem_takeWhile_imp hc
    exact beq_iff_eq.mp hbreak
  have hsplit : text.toList = kept.reverse ++ breaks.reverse := by
    rw [← List.reverse_append, List.takeWhile_append_dropWhile, List.reverse_reverse]
  refine ⟨kept.reverse, breaks.length, ?_, ?_, ?_⟩
  · rw [hsplit, hbreaks, List.reverse_replicate, List.length_replicate]
  · rw [List.getLast?_reverse]
    intro hhead
    have hnot := List.head?_dropWhile_not isBreak text.toList.reverse
    rw [hhead] at hnot
    exact absurd hnot (by decide)
  · apply String.toList_inj.mp
    simp [markedBlock, lines, dropLastBreaks, kept, isBreak]

namespace Setting

section Host

variable [Host]

structure Accepts (s : Setting) (words : List String) (flags : List (GroupFlag × Option String))
    (g : Given) : Prop where
  words : ∃ word rest, s.scanGroup words = .ok ⟨flags, word :: rest⟩ ∧
    Command.named? word = some .config ∧ scan configSpecs true rest = .ok ⟨g, []⟩
  noHelp : g.isGiven .help = false
  values : checkOptions s.disk g = .ok ()

variable {s : Setting} {words : List String} {flags : List (GroupFlag × Option String)} {g : Given}

theorem Accepts.exists_run_eq (h : s.Accepts words flags g) :
    ∃ go : Transcript Ending, s.run words = s.atLevel flags go ∧
      go.outcome = .ok (.ofOutcome ((g.document s.disk).map fun _ => ())) ∧
      Event.outputOf go.events =
        match g.document s.disk with
        | .error _ => ""
        | .ok text => markedBlock text := by
  obtain ⟨word, rest, hgroup, hname, hscan⟩ := h.words
  have hconfig : s.runConfig rest = ⟨(showConfig g.request s.disk).events,
      .ok (.ofOutcome (showConfig g.request s.disk).outcome)⟩ := by
    unfold runConfig
    simp only [hscan, h.noHelp, h.values]
    rfl
  refine ⟨s.runConfig rest, ?_, ?_, ?_⟩
  · unfold run
    simp only [hgroup, hname]
    rfl
  · rw [hconfig, outcome_showConfig]
    rfl
  · rw [hconfig]
    exact outputOf_showConfig _ _

theorem run_of_conflict (h : s.Accepts words flags g) (hflags : FlagsConflict flags) :
    ∃ fault, s.run words = .ended (.ofFailure (.usage fault)) := by
  obtain ⟨go, hgo, -, -⟩ := h.exists_run_eq
  obtain ⟨fault, hfault⟩ := ofFlags_eq_error_iff.mpr hflags
  refine ⟨fault, ?_⟩
  simp only [hgo, atLevel, hfault]

theorem run_of_no_conflict (h : s.Accepts words flags g) (hflags : ¬ FlagsConflict flags)
    (hends : ∀ f, (s.run words).ending ≠ .failed f) :
    (s.run words).ending = .ofOutcome ((g.document s.disk).map fun _ => ()) ∧
      (s.run words).output =
        match g.document s.disk with
        | .error _ => ""
        | .ok text => markedBlock text := by
  obtain ⟨go, hgo, houtcome, houtput⟩ := h.exists_run_eq
  obtain ⟨severity, hseverity⟩ := exists_severity hflags
  rw [hgo] at hends ⊢
  cases henv : Log.ofEnvironment? s.levelVariable with
  | error f =>
    simp only [atLevel, hseverity, henv] at hends
    exact absurd rfl (hends f)
  | ok env =>
    rcases s.atLevel_cases hseverity henv go with ⟨-, hfailed⟩ | ⟨-, hending, hprinted, -⟩
    · exact absurd hfailed (hends _)
    · rw [hending, hprinted, houtcome]
      exact ⟨rfl, houtput⟩

theorem run_cases (h : s.Accepts words flags g) (hends : ∀ f, (s.run words).ending ≠ .failed f) :
    ((FlagsConflict flags ∨ g.NamesUnknown) ∧ (s.run words).output = "" ∧
        ∃ fault, (s.run words).ending = .ofFailure (.usage fault)) ∨
      ¬ (FlagsConflict flags ∨ g.NamesUnknown) ∧ g.TokensKnown ∧
        ∃ draft, g.mergedDraft s.disk = .ok draft ∧ ¬ Escapes draft.freeze.outcome ∧
        ((∃ fault, draft.freeze.outcome = .error (.option fault) ∧
            (s.run words).output = "" ∧ (s.run words).ending = .ofFailure (.option fault)) ∨
          ∃ o text, draft.freeze.outcome = .ok o ∧
            documentText (g.isGiven .pyproject) o = .ok text ∧
            (s.run words).output = markedBlock text ∧ (s.run words).ending = .success) := by
  by_cases hflags : FlagsConflict flags
  · obtain ⟨fault, hrun⟩ := run_of_conflict h hflags
    rw [hrun]
    exact .inl ⟨.inl hflags, rfl, fault, rfl⟩
  obtain ⟨hending, houtput⟩ := run_of_no_conflict h hflags hends
  have hregular : ¬ Escapes (g.document s.disk) := by
    rw [← escapes_map, ← (Ending.failsIff_ofOutcome _).failed, ← hending]
    exact fun ⟨f, hf⟩ => hends f hf
  have hvalidate : ¬ Escapes (Profile.validate (Value.ofOption .text (g.last? .profile))) := by
    rw [Given.document_eq, escapes_bind, not_or] at hregular
    exact hregular.1
  by_cases hunknown : g.NamesUnknown
  · have hnot : ¬ g.TokensKnown := fun hknown => (Given.tokensKnown_iff hvalidate).mp hknown hunknown
    obtain ⟨fault, hfault⟩ := Given.document_of_unknown hnot hregular
    rw [hfault] at hending houtput
    exact .inl ⟨.inr hunknown, houtput, fault, hending⟩
  · have hknown : g.TokensKnown := (Given.tokensKnown_iff hvalidate).mpr hunknown
    obtain ⟨draft, hdraft, hfreeze, hdocument⟩ := Given.document_cases hknown hregular
    refine .inr ⟨not_or.mpr ⟨hflags, hunknown⟩, hknown, draft, hdraft, hfreeze, ?_⟩
    rcases hdocument with ⟨fault, hfault, hdocument⟩ | ⟨o, text, ho, htext, hdocument⟩
    · rw [hdocument] at hending houtput
      exact .inl ⟨fault, hfault, houtput, hending⟩
    · rw [hdocument] at hending houtput
      exact .inr ⟨o, text, ho, htext, houtput, hending⟩

end Host

end Setting

section Host

variable [Host]

/-- The exit code of a run of the command that is accepted and does not crash, and its output. The
merged settings are refused exactly if a number that wins is out of range. -/
theorem config_exit_codes (s : Setting) (words : List String)
    (flags : List (GroupFlag × Option String)) (g : Given) (h : s.Accepts words flags g)
    (hends : ∀ f, (s.run words).ending ≠ .failed f) :
    ((s.run words).ending.exitCode = ExitCode.usageError ↔
        Setting.FlagsConflict flags ∨ g.NamesUnknown) ∧
      ((s.run words).ending.exitCode = ExitCode.configError ↔
        ¬ (Setting.FlagsConflict flags ∨ g.NamesUnknown) ∧ g.Refuses s.disk) ∧
      ((s.run words).ending.exitCode = ExitCode.success ↔
        ¬ (Setting.FlagsConflict flags ∨ g.NamesUnknown) ∧ ¬ g.Refuses s.disk) ∧
      ((s.run words).ending.exitCode ≠ ExitCode.success → (s.run words).output = "") ∧
      ((s.run words).ending.exitCode = ExitCode.success →
        ∃ draft o text files, g.mergedDraft s.disk = .ok draft ∧ draft.freeze.outcome = .ok o ∧
          documentText (g.isGiven .pyproject) o = .ok text ∧ IsMarked text (s.run words).output ∧
          g.AreFilesOn s.disk files ∧
          Prints (s.run words).output
            (if g.isGiven .pyproject then forProgram (g.settingsOver (Config.layersOf s.disk files))
              else g.settingsOver (Config.layersOf s.disk files))) ∧
      (¬ (Setting.FlagsConflict flags ∨ g.NamesUnknown) → ∃ files, g.AreFilesOn s.disk files ∧
        (g.Refuses s.disk ↔
          ∃ n ∈ g.numbersOver (Config.layersOf s.disk files), n.2 < n.1)) := by
  -- Each ending has its own code, so every case settles all of the equivalences.
  rcases Setting.run_cases h hends with ⟨husage, houtput, fault, hending⟩ |
    ⟨hnone, -, draft, hdraft, hfreeze, hmerged⟩
  · have hcode : (s.run words).ending.exitCode = ExitCode.usageError := by rw [hending]; rfl
    rw [hcode]
    exact ⟨iff_of_true rfl husage, iff_of_false (by decide) fun hn => hn.1 husage,
      iff_of_false (by decide) fun hn => hn.1 husage, fun _ => houtput,
      fun hsuccess => absurd hsuccess (by decide), fun hn => absurd husage hn⟩
  have hnumbers := Given.refuses_iff_out_of_range hdraft hfreeze
  rcases hmerged with ⟨fault, hfault, houtput, hending⟩ | ⟨o, text, ho, htext, houtput, hending⟩
  · have hcode : (s.run words).ending.exitCode = ExitCode.configError := by rw [hending]; rfl
    have hrefuses : g.Refuses s.disk := ⟨draft, fault, hdraft, hfault⟩
    rw [hcode]
    exact ⟨iff_of_false (by decide) hnone, iff_of_true rfl ⟨hnone, hrefuses⟩,
      iff_of_false (by decide) fun hn => hn.2 hrefuses, fun _ => houtput,
      fun hsuccess => absurd hsuccess (by decide), fun _ => hnumbers⟩
  · have hcode : (s.run words).ending.exitCode = ExitCode.success := by rw [hending]; rfl
    have haccepted : ¬ g.Refuses s.disk := by
      rintro ⟨draft', fault, hdraft', hfault⟩
      cases hdraft.symm.trans hdraft'
      cases ho.symm.trans hfault
    obtain ⟨files, hfiles, hprints⟩ := Given.prints_of_freeze hdraft ho htext
    rw [hcode, houtput]
    exact ⟨iff_of_false (by decide) hnone, iff_of_false (by decide) fun hn => haccepted hn.2,
      iff_of_true rfl ⟨hnone, haccepted⟩, fun hfails => absurd rfl hfails,
      fun _ => ⟨draft, o, text, files, hdraft, ho, htext, isMarked_markedBlock text, hfiles, hprints⟩,
      fun _ => hnumbers⟩

end Host

def zeroWidth : Setting where
  program := "polisher"
  levelVariable := none
  disk :=
    { tree := ⟨[([configName], .file "[formatting]\npage_width = 0\n".toUTF8)]⟩
      here := [] }

def overridingWords : List String :=
  ["--verbose", "config", "--page-width", "90"]

theorem zeroWidth_accepts :
    zeroWidth.Accepts overridingWords [(.verbose, none)] [(.pageWidth, some "90")] where
  words := ⟨"config", ["--page-width", "90"], by with_unfolding_all rfl, rfl,
    by with_unfolding_all rfl⟩
  noHelp := rfl
  values := rfl

theorem zeroWidth_accepts_plain : zeroWidth.Accepts ["config"] [] [] where
  words := ⟨"config", [], by with_unfolding_all rfl, rfl, by with_unfolding_all rfl⟩
  noHelp := rfl
  values := rfl

def shownWith (indent pageWidth : Int) : Table :=
  [("formatting", .table
      [("indent", .int indent), ("page_width", .int pageWidth), ("insert_spaces", .bool true),
       ("fixes", .list [])]),
   ("indent", .table
      [("block", .int 2), ("cascade", .int 2), ("expression", .int 4),
       ("constructor_initializer", .int 4)]),
   ("style", .table
      [("outer_braces_on_block_like", .bool false),
       ("outer_braces_on_collection_literals", .bool false), ("outer_braces_on_enum", .bool false),
       ("outer_try_clause_on_newline", .bool false), ("outer_if_else_on_newline", .bool false)])]

theorem ne_failed_of_exitCode {e : Ending} (h : e.exitCode ≠ ExitCode.failure) (f : Failure) :
    e ≠ .failed f := by
  rintro rfl
  exact h rfl

theorem Given.AreFilesOn.eq_of_nearest [Host] {g : Given} {d : Disk} {files : List Path}
    {found : Option Path} (h : g.AreFilesOn d files)
    (hnearest : Config.nearest d (Path.ofNames d.here) (g.isGiven .noConfig) = .ok found) :
    files = found.toList ++ (g.allOf .config).map Path.ofText :=
  h.unique (Config.areFiles_of_nearest hnearest _)

theorem layersOf_zeroWidth {g : Given} {files : List Path} (h : g.AreFilesOn zeroWidth.disk files)
    (hconfig : g.isGiven .noConfig = false ∧ g.allOf .config = []) :
    Config.layersOf zeroWidth.disk files = [[("formatting", .table [("page_width", .int 0)])]] := by
  have hnearest : Config.nearest zeroWidth.disk (Path.ofNames []) false =
      .ok (some ⟨1, ["polisher.toml"]⟩) := Except.eq_ok_of_toOption (by decide +kernel)
  rw [← hconfig.1] at hnearest
  rw [h.eq_of_nearest hnearest, hconfig.2]
  cbv

theorem config_exit_codes_overridden :
    ((zeroWidth.run overridingWords).ending.exitCode = ExitCode.success ∧
        Prints (zeroWidth.run overridingWords).output (shownWith 0 90) ∧
        ¬ Given.Refuses [(.pageWidth, some "90")] zeroWidth.disk) ∧
      (zeroWidth.run ["config"]).ending.exitCode = ExitCode.configError ∧
        (zeroWidth.run ["config"]).output = "" ∧ Given.Refuses [] zeroWidth.disk := by
  have hcode : (zeroWidth.run overridingWords).ending.exitCode = ExitCode.success := by
    decide +kernel
  have hrefused : (zeroWidth.run ["config"]).ending.exitCode = ExitCode.configError := by
    decide +kernel
  obtain ⟨-, -, hsuccess, -, hprinted, -⟩ := config_exit_codes zeroWidth overridingWords _ _
    zeroWidth_accepts (ne_failed_of_exitCode (by rw [hcode]; decide))
  obtain ⟨-, hconfig, -, hempty, -⟩ := config_exit_codes zeroWidth ["config"] _ _
    zeroWidth_accepts_plain (ne_failed_of_exitCode (by rw [hrefused]; decide))
  obtain ⟨_, _, _, files, -, -, -, -, hfiles, hprints⟩ := hprinted hcode
  rw [layersOf_zeroWidth hfiles ⟨rfl, rfl⟩] at hprints
  exact ⟨⟨hcode, hprints, (hsuccess.mp hcode).2⟩, hrefused, hempty (by rw [hrefused]; decide),
    (hconfig.mp hrefused).2⟩

end CommandLine

end FormatSettings
