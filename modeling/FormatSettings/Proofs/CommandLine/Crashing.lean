import FormatSettings.CommandLine.Run
import FormatSettings.Proofs.CommandLine.Showing

/-!
Runs that fail. A run ends with the code of success, of a misuse or of a refusal, unless the level of
the environment is an unreadable numeral, a path has a null in it, or the settings fail to be printed.
-/

namespace FormatSettings.CommandLine

section Host

variable [Host]

end Host

namespace Ending

def regularCodes : List Nat :=
  [ExitCode.success, ExitCode.misuse, ExitCode.usageError, ExitCode.configError]

structure FailsIff (e : Ending) (cause : Prop) : Prop where
  failed : (∃ f, e = .failed f) ↔ cause
  regular : e.exitCode ∈ regularCodes ↔ ¬ cause

theorem FailsIff.congr {e : Ending} {cause other : Prop} (h : e.FailsIff cause)
    (hcause : cause ↔ other) : e.FailsIff other where
  failed := h.failed.trans hcause
  regular := h.regular.trans (not_congr hcause)

theorem failsIff_of_code {e : Ending} (code : Nat) (hcode : e.exitCode = code)
    (hregular : code ∈ regularCodes) (hfailed : ∀ f, e ≠ .failed f) : e.FailsIff False where
  failed := by simpa using hfailed
  regular := by simpa [hcode] using hregular

theorem failsIff_success : success.FailsIff False :=
  failsIff_of_code ExitCode.success rfl (by decide) nofun

theorem failsIff_failed (f : Failure) : (failed f).FailsIff True where
  failed := iff_of_true ⟨f, rfl⟩ trivial
  regular := iff_of_false (show ExitCode.failure ∉ regularCodes by decide) (by simp)

theorem failsIff_ofFailure (f : Failure) : (ofFailure f).FailsIff (¬ f.IsRefusal) := by
  cases f with
  | usage fault =>
    refine (failsIff_of_code ExitCode.usageError rfl (by decide) ?_).congr ?_
    · rintro f ⟨⟩
    · simp [Failure.IsRefusal.usage]
  | option fault =>
    refine (failsIff_of_code ExitCode.configError rfl (by decide) ?_).congr ?_
    · rintro f ⟨⟩
    · simp [Failure.IsRefusal.option]
  | _ => exact (failsIff_failed _).congr (iff_of_true trivial nofun)

theorem failsIff_ofOutcome (r : Except Failure Unit) : (ofOutcome r).FailsIff (Escapes r) := by
  cases r with
  | ok => exact failsIff_success.congr (by simpa using not_escapes_ok ())
  | error f => exact (failsIff_ofFailure f).congr escapes_error_iff.symm

end Ending

namespace Setting

def LevelUnreadable (s : Setting) : Prop :=
  ∃ t, s.levelVariable = some t ∧ Text.Unreadable (Text.upper (Text.strip t.toList))

def FlagsConflict (flags : List (GroupFlag × Option String)) : Prop :=
  (∃ f ∈ flags, f.1 = .verbose) ∧ ∃ f ∈ flags, f.1 = .quiet

section Host

variable [Host]

end Host

variable {s : Setting}

theorem countOf_pos_iff {flags : List (GroupFlag × Option String)} {flag : GroupFlag} :
    0 < countOf flags flag ↔ ∃ f ∈ flags, f.1 = flag := by
  rw [countOf, Int.ofNat_eq_natCast, Int.natCast_pos, List.countP_pos_iff]
  simp

theorem ofFlags_eq_error_iff {flags : List (GroupFlag × Option String)} :
    (∃ fault, Log.ofFlags (countOf flags .verbose) (countOf flags .quiet) = .error fault) ↔
      FlagsConflict flags := by
  rw [FlagsConflict, ← countOf_pos_iff, ← countOf_pos_iff]
  unfold Log.ofFlags
  by_cases h : 0 < countOf flags .verbose ∧ 0 < countOf flags .quiet
  · exact iff_of_true ⟨_, if_pos (by simpa using h)⟩ h
  · refine iff_of_false ?_ h
    rw [if_neg (by simpa using h)]
    rintro ⟨fault, hfault⟩
    repeat' split at hfault
    all_goals cases hfault

theorem exists_severity {flags : List (GroupFlag × Option String)}
    (hflags : ¬ FlagsConflict flags) :
    ∃ severity, Log.ofFlags (countOf flags .verbose) (countOf flags .quiet) = .ok severity := by
  cases h : Log.ofFlags (countOf flags .verbose) (countOf flags .quiet) with
  | error fault => exact absurd (ofFlags_eq_error_iff.mp ⟨fault, h⟩) hflags
  | ok severity => exact ⟨severity, rfl⟩

section Host

variable [Host]

end Host

end Setting

section Host

variable [Host]

end Host

end FormatSettings.CommandLine
