import FormatSettings.Proofs.Config.Candidates
import Mathlib.Data.List.Induction
import Mathlib.Data.Nat.Find
import Mathlib.Logic.Function.Iterate

/-!
Discovery finds the nearest config file. It searches a directory and its ancestors up to the root,
and stops without a result only where one that it reaches cannot be searched.
-/

namespace FormatSettings.Config

def ancestor (steps : Nat) (directory : List String) : List String :=
  List.dropLast^[steps] directory

@[simp] theorem ancestor_zero (directory : List String) : ancestor 0 directory = directory := rfl

theorem ancestor_succ_append (steps : Nat) (directory : List String) (name : String) :
    ancestor (steps + 1) (directory ++ [name]) = ancestor steps directory := by
  rw [ancestor, Function.iterate_succ_apply, List.dropLast_concat]
  rfl

@[simp] theorem ancestor_root (steps : Nat) : ancestor steps [] = [] :=
  Function.iterate_fixed rfl steps

theorem forall_ancestor_of_pair {P : List String → Prop} {name : String} (hname : P [name])
    (hroot : P []) (steps : Nat) : P (ancestor steps [name]) := by
  cases steps with
  | zero => exact hname
  | succ steps =>
    rw [← List.nil_append [name], ancestor_succ_append, ancestor_root]
    exact hroot

theorem upwardFrom_append (names above : List String) (name : String) :
    upwardFrom above (names ++ [name]) = (above ++ names ++ [name]) :: upwardFrom above names := by
  induction names generalizing above with
  | nil => simp [upwardFrom]
  | cons first names ih =>
    rw [List.cons_append, upwardFrom, ih]
    simp [upwardFrom]

theorem upward_append (directory : List String) (name : String) :
    upward (directory ++ [name]) = (directory ++ [name]) :: upward directory :=
  upwardFrom_append directory [] name

section Host

variable [Host]

theorem outcome_firstIn_cons (d : Disk) (directory : List String) (rest : List (List String)) :
    (firstIn d (directory :: rest)).outcome =
      match (fileIn d directory).outcome with
      | .ok none => (firstIn d rest).outcome
      | found => found := by
  rw [firstIn, Report.outcome_bind]
  rcases (fileIn d directory).outcome with f | _ | p <;> rfl

theorem firstIn_cons_eq_iff {d : Disk} {directory : List String} {rest : List (List String)}
    {found : Except Failure (Option Path)} (hfound : found ≠ .ok none) :
    (firstIn d (directory :: rest)).outcome = found ↔
      (fileIn d directory).outcome = found ∨
        (fileIn d directory).outcome = .ok none ∧ (firstIn d rest).outcome = found := by
  rw [outcome_firstIn_cons]
  rcases (fileIn d directory).outcome with f | _ | p
  · simp
  · simp [hfound.symm]
  · simp

theorem firstIn_upward_eq_iff (d : Disk) (directory : List String)
    {found : Except Failure (Option Path)} (hfound : found ≠ .ok none) :
    (firstIn d (upward directory)).outcome = found ↔
      ∃ i, (∀ j < i, (fileIn d (ancestor j directory)).outcome = .ok none) ∧
        (fileIn d (ancestor i directory)).outcome = found := by
  -- The walk drops the last name first, so the induction takes the names from the end.
  induction directory using List.reverseRecOn with
  | nil =>
    have hroot : (firstIn d (upward [])).outcome = found ↔ (fileIn d []).outcome = found :=
      (firstIn_cons_eq_iff hfound).trans (or_iff_left fun h => hfound h.2.symm)
    simp only [hroot, ancestor_root]
    constructor
    · intro h
      exact ⟨0, by omega, h⟩
    · rintro ⟨_, -, h⟩
      exact h
  | append_singleton directory name ih =>
    rw [upward_append, firstIn_cons_eq_iff hfound, ih]
    constructor
    · rintro (h | ⟨hhere, i, hbefore, hi⟩)
      · exact ⟨0, by omega, h⟩
      · refine ⟨i + 1, ?_, by rw [ancestor_succ_append]; exact hi⟩
        intro j hj
        cases j with
        | zero => exact hhere
        | succ j =>
          rw [ancestor_succ_append]
          exact hbefore j (by omega)
    · rintro ⟨i, hbefore, hi⟩
      cases i with
      | zero => exact Or.inl hi
      | succ i =>
        rw [ancestor_succ_append] at hi
        refine Or.inr ⟨hbefore 0 (by omega), i, ?_, hi⟩
        intro j hj
        rw [← ancestor_succ_append j directory name]
        exact hbefore (j + 1) (by omega)

theorem firstIn_upward_eq_none_iff (d : Disk) (directory : List String) :
    (firstIn d (upward directory)).outcome = .ok none ↔
      ∀ i, (fileIn d (ancestor i directory)).outcome = .ok none := by
  constructor
  · intro h
    by_contra hsome
    obtain ⟨i, hi⟩ := not_forall.mp hsome
    -- The walk would end at the lowest directory with another outcome than none.
    have hleast : ∃ i, (∀ j < i, (fileIn d (ancestor j directory)).outcome = .ok none) ∧
        (fileIn d (ancestor i directory)).outcome ≠ .ok none := by
      classical
      have hexists : ∃ i, (fileIn d (ancestor i directory)).outcome ≠ .ok none := ⟨i, hi⟩
      refine ⟨Nat.find hexists, fun j hj => ?_, Nat.find_spec hexists⟩
      exact not_not.mp (Nat.find_min hexists hj)
    obtain ⟨i, hbefore, hi⟩ := hleast
    have hwalk := (firstIn_upward_eq_iff d directory hi).mpr ⟨i, hbefore, rfl⟩
    exact hi (hwalk.symm.trans h)
  · intro h
    by_contra hwalk
    obtain ⟨i, -, hi⟩ := (firstIn_upward_eq_iff d directory hwalk).mp rfl
    exact hwalk (hi.symm.trans (h i))

def firstDirectory (d : Disk) (place : List String) : List String :=
  if d.holdsFile (Path.ofNames place) then place.dropLast else place

def Reached (d : Disk) (directory : List String) (steps : Nat) : Prop :=
  ∀ j < steps, ∀ p, ¬ FileOf d (ancestor j directory) p

section Walk

variable {d : Disk} {directory : List String}

theorem before_eq_none_iff (i : Nat)
    (hpass : ∀ j < i, Reached d directory j → Passable d (ancestor j directory)) :
    (∀ j < i, (fileIn d (ancestor j directory)).outcome = .ok none) ↔ Reached d directory i := by
  induction i with
  | zero => simp [Reached]
  | succ i ih =>
    have ih := ih fun j hj => hpass j (by omega)
    constructor
    · intro h
      have hi : Reached d directory i := ih.mp fun j hj => h j (by omega)
      have hnone := (fileIn_eq_none_iff.mp (h i (by omega))).2
      intro j hj
      rcases Nat.lt_succ_iff_lt_or_eq.mp hj with hj | rfl
      · exact hi j hj
      · exact hnone
    · intro h
      have hi : Reached d directory i := fun j hj => h j (by omega)
      intro j hj
      rcases Nat.lt_succ_iff_lt_or_eq.mp hj with hj | rfl
      · exact ih.mpr hi j hj
      · exact fileIn_eq_none_iff.mpr ⟨hpass j (by omega) hi, h j (by omega)⟩

theorem firstIn_of_not_passable {i : Nat} (hi : Reached d directory i)
    (h : ¬ Passable d (ancestor i directory)) :
    ∃ f, (firstIn d (upward directory)).outcome = .error f := by
  classical
  -- Of the directories that cannot be searched, the lowest one ends the walk.
  have hexists : ∃ i, Reached d directory i ∧ ¬ Passable d (ancestor i directory) := ⟨i, hi, h⟩
  obtain ⟨hleast, hfails⟩ := Nat.find_spec hexists
  have hbefore := (before_eq_none_iff (Nat.find hexists) fun j hj hreached => by
    by_contra hj'
    exact Nat.find_min hexists hj ⟨hreached, hj'⟩).mpr hleast
  obtain ⟨f, hf⟩ := fileIn_of_not_passable hfails
  exact ⟨f, (firstIn_upward_eq_iff d directory (by simp)).mpr ⟨_, hbefore, hf⟩⟩

theorem firstIn_eq_error {f : Failure}
    (h : (firstIn d (upward directory)).outcome = .error f) :
    ∃ i, Reached d directory i ∧ (fileIn d (ancestor i directory)).outcome = .error f := by
  obtain ⟨i, hbefore, hi⟩ := (firstIn_upward_eq_iff d directory (by simp)).mp h
  exact ⟨i, fun j hj => (fileIn_eq_none_iff.mp (hbefore j hj)).2, hi⟩

theorem firstIn_ok_iff :
    (∃ found, (firstIn d (upward directory)).outcome = .ok found) ↔
      ∀ i, Reached d directory i → Passable d (ancestor i directory) := by
  constructor
  · rintro ⟨found, hfound⟩ i hi
    by_contra hpass
    obtain ⟨f, hf⟩ := firstIn_of_not_passable hi hpass
    rw [hf] at hfound
    cases hfound
  · intro hpass
    cases h : (firstIn d (upward directory)).outcome with
    | ok found => exact ⟨found, rfl⟩
    | error f =>
      obtain ⟨i, hi, hf⟩ := firstIn_eq_error h
      exact absurd (hpass i hi) (not_passable_of_error hf)

variable (hpass : ∀ i, Reached d directory i → Passable d (ancestor i directory))

include hpass

theorem firstIn_eq_some_iff (p : Path) :
    (firstIn d (upward directory)).outcome = .ok (some p) ↔
      ∃ i, Reached d directory i ∧ FileOf d (ancestor i directory) p := by
  rw [firstIn_upward_eq_iff d directory (by simp)]
  refine exists_congr fun i => ?_
  rw [before_eq_none_iff i fun j _ => hpass j]
  refine and_congr_right fun hi => ?_
  rw [fileIn_eq_some_iff, and_iff_right (hpass i hi)]

theorem firstIn_eq_none_iff :
    (firstIn d (upward directory)).outcome = .ok none ↔
      ∀ i p, ¬ FileOf d (ancestor i directory) p := by
  rw [firstIn_upward_eq_none_iff]
  constructor
  · intro h i
    exact (fileIn_eq_none_iff.mp (h i)).2
  · intro h i
    exact fileIn_eq_none_iff.mpr ⟨hpass i fun j _ => h j, h i⟩

end Walk

/-- A start from which discovery comes to an answer: each path that it asks for can be looked up, and
each shared file that it reads is answered. -/
def Searchable (d : Disk) (start : Path) : Prop :=
  start.hasNull = false ∧ ∃ place, d.resolve start = .ok place ∧
    d.isHidden (Path.ofNames place) = false ∧
    ∀ i, Reached d (firstDirectory d place) i → Passable d (ancestor i (firstDirectory d place))

/-- What discovery looks for: the nearest config file on the way from a start up to the root, or none
if there is none. -/
def IsNearest (d : Disk) (start : Path) (found : Option Path) : Prop :=
  ∃ place, d.resolve start = .ok place ∧
    match found with
    | some p => ∃ i, Reached d (firstDirectory d place) i ∧
        FileOf d (ancestor i (firstDirectory d place)) p
    | none => ∀ i p, ¬ FileOf d (ancestor i (firstDirectory d place)) p

theorem Reached.eq_of_fileOf {d : Disk} {directory : List String} {i j : Nat} {p q : Path}
    (hi : Reached d directory i) (hp : FileOf d (ancestor i directory) p)
    (hj : Reached d directory j) (hq : FileOf d (ancestor j directory) q) : p = q := by
  rcases Nat.lt_trichotomy i j with hlt | rfl | hlt
  · exact absurd hp (hj i hlt p)
  · exact hp.unique hq
  · exact absurd hq (hi j hlt q)

theorem IsNearest.unique {d : Disk} {start : Path} {found other : Option Path}
    (h : IsNearest d start found) (hother : IsNearest d start other) : found = other := by
  obtain ⟨place, hplace, h⟩ := h
  obtain ⟨place', hplace', hother⟩ := hother
  cases hplace.symm.trans hplace'
  cases found with
  | none =>
    cases other with
    | none => rfl
    | some q =>
      obtain ⟨i, -, hq⟩ := hother
      exact absurd hq (h i q)
  | some p =>
    obtain ⟨i, hi, hp⟩ := h
    cases other with
    | none => exact absurd hp (hother i p)
    | some q =>
      obtain ⟨j, hj, hq⟩ := hother
      rw [hi.eq_of_fileOf hp hj hq]

theorem outcome_discover_of_resolve {d : Disk} {start : Path} {place : List String}
    (hn : start.hasNull = false) (hplace : d.resolve start = .ok place) :
    (discover d start).outcome =
      (startDirectory d place >>= fun directory => (firstIn d (upward directory)).outcome) := by
  rw [outcome_discover hn, hplace]
  rfl

theorem startDirectory_cases (d : Disk) (place : List String) :
    (d.isHidden (Path.ofNames place) = true ∧ ∃ f, d.isFile (Path.ofNames place) = .error f ∧
        startDirectory d place = .error f ∧ ¬ f.IsRefusal) ∨
      (d.isHidden (Path.ofNames place) = false ∧
        startDirectory d place = .ok (firstDirectory d place)) := by
  unfold startDirectory
  rcases d.isFile_cases (Path.ofNames place) with ⟨hhidden, f, hf, hrefusal⟩ | ⟨hopen, hfile⟩
  · rw [hf]
    exact .inl ⟨hhidden, f, rfl, rfl, hrefusal⟩
  · rw [hfile]
    exact .inr ⟨hopen, rfl⟩

theorem discover_ok_iff (d : Disk) (start : Path) :
    (∃ found, (discover d start).outcome = .ok found) ↔ Searchable d start := by
  unfold Searchable
  cases hn : start.hasNull with
  | true =>
    refine iff_of_false ?_ (by simp)
    rintro ⟨found, h⟩
    rw [discover, hn] at h
    cases h
  | false =>
    cases hplace : d.resolve start with
    | error f =>
      rw [outcome_discover hn, hplace]
      refine iff_of_false ?_ (by simp)
      rintro ⟨found, h⟩
      cases h
    | ok place =>
      simp only [Except.ok.injEq, exists_eq_left', true_and]
      rw [outcome_discover_of_resolve hn hplace, ← firstIn_ok_iff]
      rcases startDirectory_cases d place with ⟨hhidden, f, -, hf, -⟩ | ⟨hopen, hfirst⟩
      · rw [hf]
        refine iff_of_false ?_ (by simp [hhidden])
        rintro ⟨found, h⟩
        cases h
      · rw [hfirst, and_iff_right hopen]
        rfl

theorem isNearest_of_discover {d : Disk} {start : Path} {found : Option Path}
    (h : (discover d start).outcome = .ok found) : IsNearest d start found := by
  obtain ⟨hn, place, hplace, hopen, hpass⟩ := (discover_ok_iff d start).mp ⟨found, h⟩
  refine ⟨place, hplace, ?_⟩
  rw [outcome_discover_of_resolve hn hplace] at h
  rcases startDirectory_cases d place with ⟨hhidden, -⟩ | ⟨-, hfirst⟩
  · rw [hopen] at hhidden
    cases hhidden
  · rw [hfirst] at h
    cases found with
    | some p => exact (firstIn_eq_some_iff hpass p).mp h
    | none => exact (firstIn_eq_none_iff hpass).mp h

end Host

section Plain

variable {d : Disk} {directory : List String}

def Blocked (d : Disk) (directory : List String) : Prop :=
  d.isTooLong (ownPath directory) = true ∨
    d.holdsFile (ownPath directory) = false ∧ d.isTooLong (sharedPath directory) = true

def Readable (d : Disk) (directory : List String) : Prop :=
  d.holdsFile (ownPath directory) = false → d.holdsFile (sharedPath directory) = true →
    ∃ bytes cs, d.read (sharedPath directory) = .ok bytes ∧ decodeText? bytes = some cs

theorem isAnswered_plain (cs : List Char) : IsAnswered cs := by
  intro error
  change (Toml.table? cs).elim (.error ReadFault.rejected) Except.ok ≠ _
  cases Toml.table? cs <;> nofun

theorem passable_iff_not_blocked (h : Readable d directory) :
    Passable d directory ↔ ¬ Blocked d directory := by
  have hanswers : Answers d directory := by
    intro hown hshared
    obtain ⟨bytes, cs, hbytes, hcs⟩ := h hown hshared
    exact ⟨bytes, cs, hbytes, hcs, isAnswered_plain cs⟩
  rw [Passable, Barred, Disk.isHidden_plain, Disk.isHidden_plain, and_iff_left hanswers, Blocked]

theorem isFile_eq_error {p : Path} {f : Failure} (h : d.isFile p = .error f) :
    ∃ path, f = .pathTooLong path := by
  rw [Disk.isFile_eq, Disk.isDenied_plain] at h
  cases hlong : d.isTooLong p with
  | true =>
    rw [hlong] at h
    cases h
    exact ⟨_, rfl⟩
  | false =>
    rw [hlong] at h
    cases h

theorem pathTooLong_of_fileIn {f : Failure} (h : (fileIn d directory).outcome = .error f)
    (hread : Readable d directory) : ∃ path, f = .pathTooLong path := by
  rw [outcome_fileIn] at h
  rcases Except.bind_eq_error.mp h with hown | ⟨isOwn, hown, h⟩
  · exact isFile_eq_error hown
  cases isOwn with
  | true => cases h
  | false =>
    rcases Except.bind_eq_error.mp h with hshared | ⟨isShared, hshared, h⟩
    · exact isFile_eq_error hshared
    cases isShared with
    | false => cases h
    | true =>
      -- The shared file can be read, so no failure comes of loading it.
      rcases Except.bind_eq_error.mp h with hload | ⟨t, -, h⟩
      · obtain ⟨hn, bytes, hbytes⟩ := Disk.read_of_isFile hshared
        have hheld {p : Path} {b : Bool} (hp : d.isFile p = .ok b) : d.holdsFile p = b := by
          rcases d.isFile_cases p with ⟨-, f, hf, -⟩ | ⟨-, hfile⟩
          · cases hf.symm.trans hp
          · exact Except.ok.inj (hfile.symm.trans hp)
        obtain ⟨bytes', cs, hbytes', hcs⟩ := hread (hheld hown) (hheld hshared)
        cases hbytes.symm.trans hbytes'
        rw [outcome_load_of_read hn hbytes, hcs] at hload
        cases (tableOf_of_answered (isAnswered_plain cs)).symm.trans hload
      · cases h

end Plain

def shadedDisk : Disk where
  tree := ⟨[(["p", configName], .directory),
    (["p", sharedConfigName], .file "[tool]\nother = 3\n".toUTF8), ([configName], .file "".toUTF8)]⟩
  here := []

/-- Discovery comes to an answer if and only if no path that it asks for is too long, and the answer
is the nearest config file, or none if there is none up to the root. -/
theorem discovers_nearest_file (d : Disk) (start : Path) (place : List String)
    (hn : start.hasNull = false) (hplace : d.resolve start = .ok place)
    (hread : ∀ i, Reached d (firstDirectory d place) i →
      Readable d (ancestor i (firstDirectory d place))) :
    ((∃ found, (discover d start).outcome = .ok found) ↔
      d.isTooLong (Path.ofNames place) = false ∧
        ∀ i, Reached d (firstDirectory d place) i →
          ¬ Blocked d (ancestor i (firstDirectory d place))) ∧
    (∀ found, (discover d start).outcome = .ok found →
      (∀ p, found = some p ↔
        ∃ i, Reached d (firstDirectory d place) i ∧
          FileOf d (ancestor i (firstDirectory d place)) p) ∧
      (found = none ↔ ∀ i p, ¬ FileOf d (ancestor i (firstDirectory d place)) p)) ∧
    ∀ f, (discover d start).outcome = .error f → ∃ path, f = .pathTooLong path := by
  have hpassable (i : Nat) (hi : Reached d (firstDirectory d place) i) :=
    passable_iff_not_blocked (hread i hi)
  rw [outcome_discover_of_resolve hn hplace, ← Disk.isHidden_plain]
  rcases startDirectory_cases d place with ⟨hhidden, f, hfile, hf, -⟩ | ⟨hopen, hfirst⟩
  · rw [hf, hhidden]
    refine ⟨iff_of_false nofun nofun, nofun, ?_⟩
    rintro _ ⟨⟩
    exact isFile_eq_error hfile
  · have hwalk : (startDirectory d place >>= fun directory => (firstIn d (upward directory)).outcome) =
        (firstIn d (upward (firstDirectory d place))).outcome := by
      rw [hfirst]
      rfl
    rw [hwalk, hopen]
    refine ⟨?_, ?_, ?_⟩
    · -- Shared files can be read, so nothing but the length of a path stops the walk.
      rw [and_iff_right rfl]
      refine firstIn_ok_iff.trans (forall₂_congr fun i hi => hpassable i hi)
    · intro found hfound
      have hpass := firstIn_ok_iff.mp ⟨found, hfound⟩
      have hsome := firstIn_eq_some_iff hpass
      have hnone := firstIn_eq_none_iff hpass
      rw [hfound] at hsome hnone
      exact ⟨by simpa using hsome, by simpa using hnone⟩
    · intro f hf
      obtain ⟨i, hi, hfile⟩ := firstIn_eq_error hf
      exact pathTooLong_of_fileIn hfile (hread i hi)

theorem discovers_file_above :
    (discover shadedDisk ⟨1, ["p"]⟩).outcome = .ok (some ⟨1, [configName]⟩) := by
  have hplace : shadedDisk.resolve ⟨1, ["p"]⟩ = .ok ["p"] := rfl
  have hfirst : firstDirectory shadedDisk ["p"] = ["p"] := by decide +kernel
  have hown : shadedDisk.holdsFile (ownPath ["p"]) = false := by decide +kernel
  have hroot : shadedDisk.holdsFile (ownPath []) = true := by decide +kernel
  have hread : ∀ i, Readable shadedDisk (ancestor i ["p"]) := by
    refine forall_ancestor_of_pair ?_ ?_
    · intro _ _
      exact ⟨_, "[tool]\nother = 3\n".toList, rfl, by decide +kernel⟩
    · intro h
      rw [hroot] at h
      cases h
  have hfree : ∀ i, ¬ Blocked shadedDisk (ancestor i ["p"]) := by
    refine forall_ancestor_of_pair (P := fun directory => ¬ Blocked shadedDisk directory) ?_ ?_
    · unfold Blocked
      decide +kernel
    · unfold Blocked
      decide +kernel
  have hnone : ∀ p, ¬ FileOf shadedDisk ["p"] p := by
    rintro _ (h | ⟨-, -, h⟩)
    · rw [hown] at h
      cases h
    · have hnames : namesProgram (documentTable "[tool]\nother = 3\n".toList) = true :=
        (namesProgram_documentTable (d := shadedDisk) rfl (by decide +kernel)).mpr h
      exact absurd hnames (by decide +kernel)
  obtain ⟨hfinds, hnearest, -⟩ := discovers_nearest_file shadedDisk ⟨1, ["p"]⟩ ["p"]
    (by decide +kernel) hplace (by rw [hfirst]; exact fun i _ => hread i)
  rw [hfirst] at hfinds hnearest
  obtain ⟨found, hfound⟩ := hfinds.mpr ⟨by decide +kernel, fun i _ => hfree i⟩
  have hreached : Reached shadedDisk ["p"] 1 := by
    intro j hj
    obtain rfl : j = 0 := by omega
    exact hnone
  rw [hfound, ((hnearest found hfound).1 _).mpr ⟨1, hreached, FileOf.own hroot⟩]
  rfl

def ownFileDisk : Disk where
  tree := ⟨[([configName], .file "".toUTF8)]⟩
  here := []

def longName (size : Nat) : String :=
  String.ofList (List.replicate size 'a')

theorem hasNull_longName (size : Nat) : (Path.ofNames [longName size]).hasNull = false := by
  simp [Path.hasNull, Path.ofNames, longName]

theorem overlong_start_finds_nothing :
    ownFileDisk.resolve (Path.ofNames [longName 256]) = .ok [longName 256] ∧
      (∀ i, Readable ownFileDisk (ancestor i [longName 256])) ∧
      (∃ i, Reached ownFileDisk [longName 256] i ∧
        FileOf ownFileDisk (ancestor i [longName 256]) ⟨1, [configName]⟩) ∧
      ∀ found, (discover ownFileDisk (Path.ofNames [longName 256])).outcome ≠ .ok found := by
  have hlong : FileTree.nameLimit < (longName 256).utf8ByteSize := by decide +kernel
  have hstat (names : List String) := Disk.stat_of_longName ownFileDisk names hlong
  have hroot : ownFileDisk.holdsFile (ownPath []) = true := by decide +kernel
  have hplace : ownFileDisk.resolve (Path.ofNames [longName 256]) = .ok [longName 256] := by
    refine Disk.resolve_eq_ok (by decide +kernel) ?_
    rw [hstat []]
    simp
  refine ⟨hplace, ?_, ⟨1, ?_, FileOf.own hroot⟩, ?_⟩
  · refine forall_ancestor_of_pair ?_ ?_
    · intro _ h
      rw [sharedPath, List.cons_append, Disk.holdsFile_of_stat (hstat _)] at h
      cases h
    · intro h
      rw [hroot] at h
      cases h
  · intro j hj p h
    obtain rfl : j = 0 := by omega
    rcases h with h | ⟨-, h, -⟩
    · rw [ancestor_zero, ownPath, List.cons_append, Disk.holdsFile_of_stat (hstat _)] at h
      cases h
    · rw [ancestor_zero, sharedPath, List.cons_append, Disk.holdsFile_of_stat (hstat _)] at h
      cases h
  · intro found h
    have htoolong : ownFileDisk.isTooLong (Path.ofNames [longName 256]) = true := by
      rw [Disk.isTooLong, hstat []]
      simpa using hasNull_longName 256
    rw [outcome_discover_of_resolve (hasNull_longName 256) hplace, startDirectory, Disk.isFile_eq,
      htoolong] at h
    cases h

end FormatSettings.Config
