import FormatSettings.Config.Discovery
import FormatSettings.Proofs.Config.Loading

namespace FormatSettings.Config

def profileToken (t : Table) : Value :=
  (t.tableAt Key.formatting).valueOf Key.profile

structure IsReadable (t : Table) : Prop where
  profile : ∃ p, Profile.parse? (profileToken t) = .ok p
  fixes : (t.tableAt Key.formatting).hasReadableFixes = true

theorem upwardFrom_eq_cons (names above : List String) :
    ∃ rest, upwardFrom above names = (above ++ names) :: rest := by
  induction names generalizing above with
  | nil => exact ⟨[], by rw [upwardFrom, List.append_nil]⟩
  | cons name names ih =>
    obtain ⟨rest, hrest⟩ := ih (above ++ [name])
    exact ⟨rest ++ [above], by rw [upwardFrom, hrest, List.append_assoc]; rfl⟩

theorem upward_eq_cons (directory : List String) : ∃ rest, upward directory = directory :: rest :=
  upwardFrom_eq_cons directory []

section Host

variable [Host]

theorem outcome_discover {d : Disk} {start : Path} (hn : start.hasNull = false) :
    (discover d start).outcome = (do
      let place ← d.resolve start
      let directory ← startDirectory d place
      (firstIn d (upward directory)).outcome) := by
  unfold discover
  simp only [hn, Bool.false_eq_true, ↓reduceIte, Report.outcome_bind, Report.outcome_ofExcept]

theorem discover_shared {d : Disk} {start : Path} {directory : List String} {t : Table}
    (hn : start.hasNull = false) (hstart : d.resolve start = .ok directory)
    (hdirectory : d.isFile (Path.ofNames directory) = .ok false)
    (hown : d.isFile (Path.ofNames (directory ++ [configName])) = .ok false)
    (hshared : d.isFile (Path.ofNames (directory ++ [sharedConfigName])) = .ok true)
    (hload : (load d (Path.ofNames (directory ++ [sharedConfigName]))).outcome = .ok t)
    (hnames : namesProgram t = true) :
    (discover d start).outcome =
      .ok (some (Path.ofNames (directory ++ [sharedConfigName]))) := by
  have hplace : startDirectory d directory = .ok directory := by
    rw [startDirectory, hdirectory]
    rfl
  have hfile : (fileIn d directory).outcome =
      .ok (some (Path.ofNames (directory ++ [sharedConfigName]))) := by
    refine Report.bind_outcome_eq_ok.mpr ⟨false, hown, ?_⟩
    refine Report.bind_outcome_eq_ok.mpr ⟨true, hshared, ?_⟩
    refine Report.bind_outcome_eq_ok.mpr ⟨t, hload, ?_⟩
    rw [hnames]
    rfl
  obtain ⟨rest, hupward⟩ := upward_eq_cons directory
  rw [outcome_discover hn, hstart]
  change (startDirectory d directory >>= _) = _
  rw [hplace]
  change (firstIn d (upward directory)).outcome = _
  rw [hupward, firstIn]
  exact Report.bind_outcome_eq_ok.mpr ⟨_, hfile, rfl⟩

end Host

theorem name_ofNames_append (directory : List String) (name : String) :
    (Path.ofNames (directory ++ [name])).name = name := by
  simp [Path.name, Path.ofNames]

end FormatSettings.Config
