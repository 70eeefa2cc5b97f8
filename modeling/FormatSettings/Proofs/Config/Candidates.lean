import FormatSettings.Proofs.Config.Discovery
import FormatSettings.Proofs.Files.Lookup

namespace FormatSettings.Config

def ownPath (directory : List String) : Path :=
  Path.ofNames (directory ++ [configName])

def sharedPath (directory : List String) : Path :=
  Path.ofNames (directory ++ [sharedConfigName])

theorem namesProgram_iff (t : Table) :
    namesProgram t = true ↔
      ∃ tools v, t.lookup Key.tool = some (.table tools) ∧ tools.lookup Key.program = some v := by
  unfold namesProgram Table.hasKey Table.tableAt Table.valueOf
  constructor
  · intro h
    cases ht : t.lookup Key.tool with
    | none => simp [ht] at h
    | some tool =>
      cases tool with
      | table tools =>
        simp only [ht, Option.getD_some] at h
        obtain ⟨v, hv⟩ := Option.isSome_iff_exists.mp h
        exact ⟨tools, v, rfl, hv⟩
      | _ => simp [ht] at h
  · rintro ⟨tools, v, ht, hv⟩
    simp [ht, hv]

variable [Host]

/-- A file holds a document whose table of tools has an entry for this program. -/
def NamesProgram (d : Disk) (p : Path) : Prop :=
  ∃ bytes cs t tools v, d.read p = .ok bytes ∧ decodeText? bytes = some cs ∧ parse? cs = some t ∧
    t.lookup Key.tool = some (.table tools) ∧ tools.lookup Key.program = some v

inductive FileOf (d : Disk) (directory : List String) : Path → Prop
  | own (h : d.holdsFile (ownPath directory) = true) : FileOf d directory (ownPath directory)
  | shared (hown : d.holdsFile (ownPath directory) = false)
      (h : d.holdsFile (sharedPath directory) = true)
      (hnames : NamesProgram d (sharedPath directory)) : FileOf d directory (sharedPath directory)

def Barred (d : Disk) (directory : List String) : Prop :=
  d.isHidden (ownPath directory) = true ∨
    d.holdsFile (ownPath directory) = false ∧ d.isHidden (sharedPath directory) = true

def Answers (d : Disk) (directory : List String) : Prop :=
  d.holdsFile (ownPath directory) = false → d.holdsFile (sharedPath directory) = true →
    ∃ bytes cs, d.read (sharedPath directory) = .ok bytes ∧ decodeText? bytes = some cs ∧
      IsAnswered cs

def Passable (d : Disk) (directory : List String) : Prop :=
  ¬ Barred d directory ∧ Answers d directory

theorem FileOf.unique {d : Disk} {directory : List String} {p q : Path}
    (hp : FileOf d directory p) (hq : FileOf d directory q) : p = q := by
  cases hp with
  | own hp =>
    cases hq with
    | own _ => rfl
    | shared hown => exact absurd hp (by rw [hown]; exact Bool.false_ne_true)
  | shared hown =>
    cases hq with
    | own hq => exact absurd hq (by rw [hown]; exact Bool.false_ne_true)
    | shared => rfl

theorem namesProgram_documentTable {d : Disk} {p : Path} {bytes : ByteArray} {cs : List Char}
    (hbytes : d.read p = .ok bytes) (hcs : decodeText? bytes = some cs) :
    namesProgram (documentTable cs) = true ↔ NamesProgram d p := by
  rw [namesProgram_iff]
  unfold NamesProgram documentTable
  constructor
  · rintro ⟨tools, v, ht, hv⟩
    cases hparse : parse? cs with
    | none => simp [hparse] at ht
    | some t =>
      rw [hparse, Option.getD_some] at ht
      exact ⟨bytes, cs, t, tools, v, hbytes, hcs, hparse, ht, hv⟩
  · rintro ⟨bytes', cs', t, tools, v, hbytes', hcs', hparse, ht, hv⟩
    rw [hbytes] at hbytes'
    cases hbytes'
    rw [hcs] at hcs'
    cases hcs'
    rw [hparse, Option.getD_some]
    exact ⟨tools, v, ht, hv⟩

theorem load_of_holdsFile {d : Disk} {p : Path} (h : d.holdsFile p = true) :
    ∃ bytes, d.read p = .ok bytes ∧
      (((decodeText? bytes = none ∨ ∃ cs, decodeText? bytes = some cs ∧ ¬ IsAnswered cs) ∧
          ∃ f, (load d p).outcome = .error f ∧ ¬ f.IsRefusal) ∨
        ∃ cs t, decodeText? bytes = some cs ∧ IsAnswered cs ∧ (load d p).outcome = .ok t ∧
          (namesProgram t = true ↔ NamesProgram d p)) := by
  obtain ⟨hn, bytes, hbytes⟩ := Disk.read_of_isFile (Disk.isFile_of_holdsFile h)
  refine ⟨bytes, hbytes, ?_⟩
  rw [outcome_load_of_read hn hbytes]
  cases hcs : decodeText? bytes with
  | none => exact .inl ⟨.inl rfl, _, rfl, nofun⟩
  | some cs =>
    rcases tableOf_cases cs with ⟨hanswered, htable⟩ | ⟨hnot, error, hfails⟩
    · exact .inr ⟨cs, _, rfl, hanswered, htable, namesProgram_documentTable hbytes hcs⟩
    · exact .inl ⟨.inr ⟨cs, rfl, hnot⟩, _, hfails, nofun⟩

theorem outcome_fileIn (d : Disk) (directory : List String) :
    (fileIn d directory).outcome = (do
      if ← d.isFile (ownPath directory) then return some (ownPath directory)
      else if ← d.isFile (sharedPath directory) then
        return if namesProgram (← (load d (sharedPath directory)).outcome) then
          some (sharedPath directory) else none
      else return none) := by
  unfold fileIn
  rw [Report.outcome_bind, Report.outcome_ofExcept]
  change d.isFile (ownPath directory) >>= _ = _
  congr 1
  funext isOwn
  cases isOwn with
  | true => rfl
  | false =>
    change (Report.ofExcept (d.isFile (sharedPath directory)) >>= _).outcome = _
    rw [Report.outcome_bind, Report.outcome_ofExcept]
    change _ = d.isFile (sharedPath directory) >>= _
    congr 1
    funext isShared
    cases isShared with
    | false => rfl
    | true => exact Report.outcome_bind _ _

theorem fileIn_cases (d : Disk) (directory : List String) :
    (¬ Passable d directory ∧ ∃ f, (fileIn d directory).outcome = .error f ∧ ¬ f.IsRefusal) ∨
    (Passable d directory ∧
      ∃ p, FileOf d directory p ∧ (fileIn d directory).outcome = .ok (some p)) ∨
    (Passable d directory ∧ (∀ p, ¬ FileOf d directory p) ∧
      (fileIn d directory).outcome = .ok none) := by
  rw [outcome_fileIn]
  -- The splits follow the order in which the paths are asked for, so each case has what it needs.
  rcases d.isFile_cases (ownPath directory) with ⟨hhidden, f, hf, hrefusal⟩ | ⟨hopen, hfile⟩
  · rw [hf]
    exact .inl ⟨fun hpass => hpass.1 (.inl hhidden), f, rfl, hrefusal⟩
  rw [hfile]
  cases hown : d.holdsFile (ownPath directory) with
  | true =>
    have hpass : Passable d directory := by simp [Passable, Barred, Answers, hopen, hown]
    exact .inr (.inl ⟨hpass, _, FileOf.own hown, rfl⟩)
  | false =>
    have hnotOwn : ¬ d.holdsFile (ownPath directory) = true := by simp [hown]
    rcases d.isFile_cases (sharedPath directory) with ⟨hhidden, f, hf, hrefusal⟩ | ⟨hopenShared, hfile⟩
    · refine .inl ⟨fun hpass => hpass.1 (.inr ⟨hown, hhidden⟩), f, ?_, hrefusal⟩
      simp only [bind, Except.bind, Bool.false_eq_true, ↓reduceIte, hf]
    have hfree : ¬ Barred d directory := by simp [Barred, hopen, hopenShared]
    cases hshared : d.holdsFile (sharedPath directory) with
    | false =>
      have hpass : Passable d directory := ⟨hfree, fun _ h => by simp [hshared] at h⟩
      refine .inr (.inr ⟨hpass, ?_, ?_⟩)
      · rintro _ (h | ⟨-, h, -⟩)
        · exact hnotOwn h
        · simp [hshared] at h
      · simp only [bind, Except.bind, Bool.false_eq_true, ↓reduceIte, hfile, hshared]
        rfl
    | true =>
      obtain ⟨bytes, hbytes, ⟨hfault, f, hload, hrefusal⟩ | ⟨cs, t, hcs, hanswered, hload, hnames⟩⟩ :=
        load_of_holdsFile hshared
      · refine .inl ⟨fun hpass => ?_, f, ?_, hrefusal⟩
        · obtain ⟨bytes', cs, hbytes', hcs, hanswered⟩ := hpass.2 hown hshared
          cases hbytes.symm.trans hbytes'
          rcases hfault with hnone | ⟨cs', hcs', hnot⟩
          · cases hcs.symm.trans hnone
          · cases hcs.symm.trans hcs'
            exact hnot hanswered
        · simp only [bind, Except.bind, Bool.false_eq_true, ↓reduceIte, hfile, hshared, hload]
      · have hpass : Passable d directory :=
          ⟨hfree, fun _ _ => ⟨bytes, cs, hbytes, hcs, hanswered⟩⟩
        simp only [bind, Except.bind, Bool.false_eq_true, ↓reduceIte, hfile, hshared, hload]
        cases hprogram : namesProgram t with
        | true =>
          have hfile := FileOf.shared hown hshared (hnames.mp hprogram)
          exact .inr (.inl ⟨hpass, _, hfile, rfl⟩)
        | false =>
          refine .inr (.inr ⟨hpass, ?_, rfl⟩)
          rintro _ (h | ⟨-, -, h⟩)
          · exact hnotOwn h
          · simp [hnames.mpr h] at hprogram

theorem fileIn_eq_none_iff {d : Disk} {directory : List String} :
    (fileIn d directory).outcome = .ok none ↔
      Passable d directory ∧ ∀ p, ¬ FileOf d directory p := by
  rcases fileIn_cases d directory with ⟨hnot, _, h, -⟩ | ⟨-, p, hp, h⟩ | ⟨hpass, hnone, h⟩
  · simp [h, hnot]
  · simp only [h, Except.ok.injEq, reduceCtorEq, false_iff]
    rintro ⟨-, hnone⟩
    exact hnone p hp
  · exact iff_of_true h ⟨hpass, hnone⟩

theorem fileIn_eq_some_iff {d : Disk} {directory : List String} {p : Path} :
    (fileIn d directory).outcome = .ok (some p) ↔ Passable d directory ∧ FileOf d directory p := by
  rcases fileIn_cases d directory with ⟨hnot, _, h, -⟩ | ⟨hpass, q, hq, h⟩ | ⟨-, hnone, h⟩
  · simp [h, hnot]
  · simp only [h, Except.ok.injEq, Option.some.injEq]
    constructor
    · rintro rfl
      exact ⟨hpass, hq⟩
    · rintro ⟨-, hp⟩
      exact hq.unique hp
  · simp [h, hnone p]

theorem failsOnly_fileIn (d : Disk) (directory : List String) :
    FailsOnly (¬ ·.IsRefusal) (fileIn d directory).outcome := by
  intro f hf
  rcases fileIn_cases d directory with ⟨-, _, h, hrefusal⟩ | ⟨-, _, -, h⟩ | ⟨-, -, h⟩
  · cases h.symm.trans hf
    exact hrefusal
  · cases h.symm.trans hf
  · cases h.symm.trans hf

theorem not_passable_of_error {d : Disk} {directory : List String} {f : Failure}
    (h : (fileIn d directory).outcome = .error f) : ¬ Passable d directory := by
  rcases fileIn_cases d directory with ⟨hnot, -⟩ | ⟨-, _, -, h'⟩ | ⟨-, -, h'⟩
  · exact hnot
  · cases h'.symm.trans h
  · cases h'.symm.trans h

theorem fileIn_of_not_passable {d : Disk} {directory : List String}
    (h : ¬ Passable d directory) : ∃ f, (fileIn d directory).outcome = .error f := by
  rcases fileIn_cases d directory with ⟨-, f, hf, -⟩ | ⟨hpass, -⟩ | ⟨hpass, -⟩
  · exact ⟨f, hf⟩
  · exact absurd hpass h
  · exact absurd hpass h

end FormatSettings.Config
