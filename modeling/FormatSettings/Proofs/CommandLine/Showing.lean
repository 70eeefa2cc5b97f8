import FormatSettings.Proofs.CommandLine.Numbers
import FormatSettings.Proofs.Config.Unloadable

namespace FormatSettings

def Failure.IsUsage (f : Failure) : Prop :=
  ∃ fault, f = .usage fault

theorem Failure.IsUsage.isRefusal {f : Failure} (h : f.IsUsage) : f.IsRefusal := by
  obtain ⟨fault, rfl⟩ := h
  exact .usage fault

theorem Fix.failsOnly_validateAll (tokens : List String) :
    FailsOnly Failure.IsUsage (validateAll (tokens.map .text)) := by
  intro f hf
  obtain ⟨t, -, rfl⟩ := validateAll_eq_error_iff.mp hf
  exact ⟨_, rfl⟩

namespace CommandLine

namespace Given

open Config

structure TokensKnown (g : Given) : Prop where
  profile : (g.last? .profile).isSome = true → g.profile?.isSome = true
  fix : ∀ s ∈ g.allOf .fix, (Fix.parse? s).isSome = true

variable {g : Given}

theorem validate_profile (h : g.TokensKnown) :
    Profile.validate (Value.ofOption .text (g.last? .profile)) = .ok g.profile? := by
  have hknown := h.profile
  unfold profile? at hknown ⊢
  cases hs : g.last? .profile with
  | none => rfl
  | some s =>
    have hsome := hknown (by rw [hs]; rfl)
    rw [hs, Option.bind_some] at hsome
    simp only [Value.ofOption, Profile.validate, Option.bind_some]
    cases hparse : Profile.parse? (.text s) with
    | error fault =>
      rw [hparse] at hsome
      cases hsome
    | ok found =>
      rw [hparse] at hsome
      obtain ⟨p, rfl⟩ := Option.isSome_iff_exists.mp hsome
      rfl

theorem applyArguments_lastDraft (g : Given) (layers : List Table) (sources : List Value) :
    ∃ fixes, ((lastDraft layers sources).applyArguments g.arguments).outcome =
        .ok (g.draftOver layers sources (g.profileOver layers) fixes) ∧
      (fixes.getD .empty).others = [] := by
  have hprofile : ∃ profile,
      Draft.profileAfter g.arguments (lastDraft layers sources).profile = .ok profile := by
    rw [Draft.profileAfter, valueOf_arguments (o := .profile) rfl, argument]
    cases g.profile? with
    | none => exact ⟨_, rfl⟩
    | some p => exact ⟨_, rfl⟩
  have hfixes : ∃ fixes,
      Draft.fixesAfter g.arguments (lastDraft layers sources).fixes = .ok fixes := by
    have hwritable : Value.areWritable (g.fixes.map .fix) = true :=
      Value.areWritable_map (fun _ => rfl) _
    rw [Draft.fixesAfter, valueOf_arguments (o := .fix) rfl, argument]
    split
    · simp only [Value.elements?, if_pos hwritable]
      exact ⟨_, rfl⟩
    · exact ⟨_, rfl⟩
  obtain ⟨profile, hprofile⟩ := hprofile
  obtain ⟨fixes, hfixes⟩ := hfixes
  refine ⟨fixes, ?_, (fixesAfter_arguments hfixes).2⟩
  rw [Draft.outcome_applyArguments, hprofile, hfixes, profileAfter_arguments hprofile]
  rfl

theorem tokensKnown_of_validate {profile : Option Profile} {fixes : List Fix}
    (hprofile : Profile.validate (Value.ofOption .text (g.last? .profile)) = .ok profile)
    (hfixes : Fix.validate (.list ((g.allOf .fix).map .text)) = .ok fixes) : g.TokensKnown where
  profile := (profile?_of_validate hprofile).2
  fix := (fixes_of_validate hfixes).2

def documentOver (g : Given) (merged : Draft) : Except Failure String := do
  let draft ← (merged.applyArguments g.arguments).outcome
  draft.freeze.outcome >>= documentText (g.isGiven .pyproject)

section Host

variable [Host]

def AreFilesOn (g : Given) (d : Disk) (files : List Path) : Prop :=
  AreFiles d (Path.ofNames d.here) (g.isGiven .noConfig) ((g.allOf .config).map Path.ofText) files

def document (g : Given) (d : Disk) : Except Failure String :=
  (g.request.options d).outcome >>= documentText (g.isGiven .pyproject)

def merged (g : Given) (d : Disk) : Except Failure Draft :=
  (loadMerged d (Path.ofNames d.here) (g.isGiven .noConfig)
    ((g.allOf .config).map Path.ofText)).outcome

theorem document_eq (g : Given) (d : Disk) :
    g.document d = (do
      let profile ← Profile.validate (Value.ofOption .text (g.last? .profile))
      let fixes ← Fix.validate (.list ((g.allOf .fix).map .text))
      let merged ← g.merged d
      let draft ← (merged.applyArguments (g.request.arguments profile fixes)).outcome
      draft.freeze.outcome >>= documentText (g.isGiven .pyproject)) := by
  simp only [document, Request.options, Report.outcome_bind, Report.outcome_ofExcept, bind_assoc]
  rfl

theorem document_of_known (h : g.TokensKnown) (d : Disk) :
    g.document d = g.merged d >>= g.documentOver := by
  have hfixes : Fix.validate (.list ((g.allOf .fix).map .text)) = .ok g.fixes :=
    Fix.validateAll_eq_ok_iff.mpr (Fix.map_parse?_eq_iff.mpr ⟨h.fix, rfl⟩)
  rw [document_eq, validate_profile h, hfixes]
  rfl

theorem escapes_document_of_unknown {d : Disk} (h : ¬ g.TokensKnown) :
    Escapes (g.document d) ↔
      Escapes (Profile.validate (Value.ofOption .text (g.last? .profile))) := by
  rw [document_eq, escapes_bind]
  refine or_iff_left ?_
  rintro ⟨profile, hprofile, hescapes⟩
  rcases escapes_bind.mp hescapes with hfixes | ⟨fixes, hfixes, -⟩
  · exact (Fix.failsOnly_validateAll _).not_escapes (fun _ => Failure.IsUsage.isRefusal) hfixes
  · exact h (tokensKnown_of_validate hprofile hfixes)

end Host

end Given

end CommandLine

end FormatSettings
