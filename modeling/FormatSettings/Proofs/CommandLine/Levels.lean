import FormatSettings.Proofs.CommandLine.Crashing
import FormatSettings.Proofs.Log.Setups

namespace FormatSettings

namespace CommandLine

def Run.rootFrom (r : Run) (before : Log.Root) : Log.Root :=
  match r.level with
  | some level => before.configure level
  | none => before

namespace Setting

variable [Host] {s : Setting} {flags : List (GroupFlag × Option String)} {severity : Severity}

theorem rootFrom_atLevel {env : Option Nat}
    (hseverity : Log.ofFlags (countOf flags .verbose) (countOf flags .quiet) = .ok severity)
    (henv : Log.ofEnvironment? s.levelVariable = .ok env) (go : Transcript Ending) (before : Log.Root) :
    (s.atLevel flags go).rootFrom before = before.configure (levelFor env severity) := by
  simp only [atLevel, hseverity, henv, Run.rootFrom, Run.ofTranscript]

theorem atLevel_of_error {f : Failure}
    (hseverity : Log.ofFlags (countOf flags .verbose) (countOf flags .quiet) = .ok severity)
    (henv : Log.ofEnvironment? s.levelVariable = .error f) (go : Transcript Ending) :
    s.atLevel flags go = .ended (.failed f) := by
  simp only [atLevel, hseverity, henv]

end Setting

/-- A level that the environment asks for is the one that a run leaves the root logger at, whatever
its flags and whatever it goes on with, and a set-up without a level makes the same root logger
unless that level is zero. If none is asked for, the run is at the level of its flags and the set-up
at the highest one, which it also takes for zero. A numeral that cannot be read fails in both. -/
theorem environment_level_honoured [Host] (s : Setting) {flags : List (GroupFlag × Option String)}
    (hflags : ¬ Setting.FlagsConflict flags) (go : Transcript Ending) (before : Log.Root) :
    (∀ t n, s.levelVariable = some t → Log.AsksFor t n →
      ((s.atLevel flags go).rootFrom before).level = n ∧
      (n ≠ 0 → Log.setup s.levelVariable none before = .ok ((s.atLevel flags go).rootFrom before)) ∧
      (n = 0 → (Log.setup s.levelVariable none before).map (·.level) =
        .ok Severity.critical.number)) ∧
    (Log.NamesNone s.levelVariable →
      (∃ severity, Log.ofFlags (Setting.countOf flags .verbose) (Setting.countOf flags .quiet) =
          .ok severity ∧ ((s.atLevel flags go).rootFrom before).level = severity.number) ∧
      (Log.setup s.levelVariable none before).map (·.level) = .ok Severity.critical.number) ∧
    (s.LevelUnreadable →
      ∃ f, s.atLevel flags go = .ended (.failed f) ∧
        Log.setup s.levelVariable none before = .error f) := by
  obtain ⟨severity, hseverity⟩ := Setting.exists_severity hflags
  refine ⟨?_, ?_, ?_⟩
  · intro t n ht hasks
    have henv := Log.ofEnvironment?_eq_some_iff.mpr ⟨t, ht, hasks⟩
    have hroot : (s.atLevel flags go).rootFrom before = before.configure n :=
      Setting.rootFrom_atLevel hseverity henv go before
    rw [hroot, Log.setup_none_eq_ok henv]
    refine ⟨Log.Root.level_configure _ _, ?_, ?_⟩
    · intro hn
      -- The set-up takes a level that does not hold for none; zero is the only one.
      rw [Option.getD_some, if_neg hn]
    · rintro rfl
      exact congrArg Except.ok (Log.Root.level_configure _ _)
  · intro hnone
    have henv := Log.ofEnvironment?_of_namesNone hnone
    rw [Setting.rootFrom_atLevel hseverity henv, Log.setup_none_eq_ok henv]
    exact ⟨⟨severity, hseverity, Log.Root.level_configure _ _⟩,
      congrArg Except.ok (Log.Root.level_configure _ _)⟩
  · intro hunreadable
    obtain ⟨f, henv⟩ := Log.ofEnvironment?_eq_error_iff.mpr hunreadable
    exact ⟨f, Setting.atLevel_of_error hseverity henv go, Log.setup_none_eq_error henv before⟩

def leveled (text : String) : Setting :=
  ⟨"polisher", some text, ⟨.empty, []⟩⟩

def foreignRoot : Log.Root :=
  ⟨Severity.warning.number, [.foreign 0]⟩

theorem environment_level_honoured_ten :
    Log.AsksFor " \u0661\u0966 " 10 ∧
      Log.setup (some " \u0661\u0966 ") none foreignRoot =
        .ok (((leveled " \u0661\u0966 ").atLevel [(.quiet, none)] (pure .success)).rootFrom
          foreignRoot) := by
  have hstrip : Text.strip " \u0661\u0966 ".toList = ['\u0661', '\u0966'] := by decide +kernel
  have hwrites : Text.Writes (Text.strip " \u0661\u0966 ".toList) 10 := by
    have hdecimal : ∀ c ∈ ['\u0661', '\u0966'], Text.IsDecimal c := by
      rw [List.forall_mem_cons, List.forall_mem_singleton]
      decide
    rw [hstrip]
    exact ⟨by decide, by decide, hdecimal, by decide +kernel⟩
  have hflags : ¬ Setting.FlagsConflict [(.quiet, none)] := by simp [Setting.FlagsConflict]
  obtain ⟨hasked, -⟩ := environment_level_honoured (leveled " \u0661\u0966 ") hflags
    (pure .success) foreignRoot
  exact ⟨.number hwrites, (hasked _ 10 rfl (.number hwrites)).2.1 (by decide)⟩

theorem level_zero_dropped :
    Log.AsksFor "NOTSET" 0 ∧
      (((leveled "NOTSET").atLevel [] (pure .success)).rootFrom foreignRoot).level = 0 ∧
      (Log.setup (some "NOTSET") none foreignRoot).map (·.level) =
        .ok Severity.critical.number := by
  have hmem : ("NOTSET", 0) ∈ Log.levelNames := by decide
  refine ⟨.name hmem (by decide +kernel), ?_, ?_⟩
  · with_unfolding_all rfl
  · with_unfolding_all rfl

end CommandLine

end FormatSettings
