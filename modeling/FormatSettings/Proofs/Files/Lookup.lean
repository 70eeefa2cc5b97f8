import FormatSettings.Files.Disk
import FormatSettings.Proofs.Report

namespace FormatSettings

theorem FileTree.descend_ne_accessDenied (t : FileTree) (base names : List String) :
    t.descend base names ≠ .fault .accessDenied := by
  induction names generalizing base with
  | nil => nofun
  | cons name rest ih =>
    have hopen : ¬ Host.isSealed base = true := nofun
    rw [descend, if_neg hopen]
    split
    · exact ih base
    · split
      · exact ih _
      · split
        · nofun
        · split
          · nofun
          · exact ih _
          · split <;> nofun
          · nofun

theorem FileTree.walk_ne_accessDenied (t : FileTree) (links : Nat) (base names : List String) :
    t.walk links base names ≠ .error .accessDenied := by
  induction links generalizing base names with
  | zero =>
    rw [walk]
    have hnot := descend_ne_accessDenied t base names
    cases hstop : t.descend base names with
    | fault f =>
      rintro ⟨⟩
      exact hnot hstop
    | found n => nofun
    | atLink place target rest => nofun
  | succ links ih =>
    rw [walk]
    have hnot := descend_ne_accessDenied t base names
    cases hstop : t.descend base names with
    | fault f =>
      rintro ⟨⟩
      exact hnot hstop
    | found n => nofun
    | atLink place target rest => exact ih _ _

theorem FileTree.mem_entries_of_node? {t : FileTree} {bytes : ByteArray} {place : List String}
    (h : t.node? place = some (.file bytes)) : ∃ e ∈ t.entries, e.2 = .file bytes := by
  unfold node? at h
  split at h
  · next n hlookup =>
    cases h
    exact ⟨_, mem_of_lookup hlookup, rfl⟩
  · split at h <;> cases h

section Entries

variable [Host] {t : FileTree} {bytes : ByteArray}

theorem FileTree.mem_entries_of_descend {base names : List String}
    (h : t.descend base names = .found (.file bytes)) : ∃ e ∈ t.entries, e.2 = .file bytes := by
  fun_induction t.descend base names with
  | case1 => cases h
  | case2 => cases h
  | case3 _ _ _ _ _ ih => exact ih h
  | case4 _ _ _ _ _ _ ih => exact ih h
  | case5 => cases h
  | case6 => cases h
  | case7 _ _ _ _ _ _ _ _ ih => exact ih h
  | case8 _ _ _ _ _ _ _ _ hnode =>
    cases h
    exact mem_entries_of_node? hnode
  | case9 => cases h
  | case10 => cases h

theorem FileTree.mem_entries_of_walk {links : Nat} {base names : List String}
    (h : t.walk links base names = .ok (.file bytes)) : ∃ e ∈ t.entries, e.2 = .file bytes := by
  fun_induction t.walk links base names with
  | case1 => cases h
  | case2 _ _ _ n hfound =>
    cases h
    exact mem_entries_of_descend hfound
  | case3 => cases h
  | case4 _ _ _ _ _ _ _ ih => exact ih h

theorem Disk.mem_entries_of_read {d : Disk} {p : Path} (h : d.read p = .ok bytes) :
    ∃ e ∈ d.tree.entries, e.2 = .file bytes := by
  unfold read stat statSteps at h
  split at h
  · next hstat =>
    cases h
    split at hstat
    · cases hstat
    · exact FileTree.mem_entries_of_walk hstat
  · cases h
  · cases h

end Entries

namespace Disk

section Host

variable [Host]

def holdsFile (d : Disk) (p : Path) : Bool :=
  !p.hasNull && match d.stat p with
    | .ok (.file _) => true
    | _ => false

def isTooLong (d : Disk) (p : Path) : Bool :=
  !p.hasNull && match d.stat p with
    | .error .nameTooLong => true
    | _ => false

def isDenied (d : Disk) (p : Path) : Bool :=
  !p.hasNull && match d.stat p with
    | .error .accessDenied => true
    | _ => false

/-- It cannot be told what stands at a path. -/
def isHidden (d : Disk) (p : Path) : Bool :=
  d.isTooLong p || d.isDenied p

theorem isFile_eq (d : Disk) (p : Path) :
    d.isFile p =
      if d.isTooLong p then .error (.pathTooLong p.toText)
      else if d.isDenied p then .error (.accessDenied p.toText)
      else .ok (d.holdsFile p) := by
  unfold isFile isTooLong isDenied holdsFile
  cases p.hasNull with
  | true => rfl
  | false =>
    simp only [Bool.false_eq_true, ↓reduceIte, Bool.not_false, Bool.true_and]
    rcases d.stat p with fault | node
    · cases fault <;> rfl
    · cases node <;> rfl

theorem isFile_cases (d : Disk) (p : Path) :
    (d.isHidden p = true ∧ ∃ f, d.isFile p = .error f ∧ ¬ f.IsRefusal) ∨
      (d.isHidden p = false ∧ d.isFile p = .ok (d.holdsFile p)) := by
  rw [isFile_eq, isHidden]
  cases d.isTooLong p with
  | true => exact .inl ⟨rfl, _, rfl, nofun⟩
  | false =>
    cases d.isDenied p with
    | true => exact .inl ⟨rfl, _, rfl, nofun⟩
    | false => exact .inr ⟨rfl, rfl⟩

theorem not_hidden_of_holdsFile {d : Disk} {p : Path} (h : d.holdsFile p = true) :
    d.isHidden p = false := by
  unfold holdsFile at h
  unfold isHidden isTooLong isDenied
  split at h
  · next bytes hs => rw [hs, Bool.and_false, Bool.or_false]
  · rw [Bool.and_false] at h
    cases h

theorem isFile_of_holdsFile {d : Disk} {p : Path} (h : d.holdsFile p = true) :
    d.isFile p = .ok true := by
  rcases d.isFile_cases p with ⟨hhidden, -⟩ | ⟨-, hfile⟩
  · rw [not_hidden_of_holdsFile h] at hhidden
    cases hhidden
  · rw [hfile, h]

theorem holdsFile_of_stat {d : Disk} {p : Path} {fault : FileFault}
    (h : d.stat p = .error fault) : d.holdsFile p = false := by
  rw [holdsFile, h, Bool.and_false]

theorem resolve_eq_ok {d : Disk} {p : Path} {place : List String}
    (hplace : d.tree.resolve (d.baseOf p) p.names = place)
    (hstat : d.stat (Path.ofNames place) ≠ .error .tooManyLinks) : d.resolve p = .ok place := by
  unfold resolve
  simp only [hplace]

end Host

section Plain

theorem isDenied_plain (d : Disk) (p : Path) : d.isDenied p = false := by
  have hstat : d.stat p ≠ .error .accessDenied := by
    unfold stat statSteps
    split
    · nofun
    · exact FileTree.walk_ne_accessDenied _ _ _ _
  unfold isDenied
  split
  · next h => exact absurd h hstat
  · exact Bool.and_false _

theorem isHidden_plain (d : Disk) (p : Path) : d.isHidden p = d.isTooLong p := by
  rw [isHidden, isDenied_plain, Bool.or_false]

theorem stat_of_longName (d : Disk) {name : String} (names : List String)
    (h : FileTree.nameLimit < name.utf8ByteSize) :
    d.stat (Path.ofNames (name :: names)) = .error .nameTooLong := by
  have hdot : name ≠ "." := by
    rintro rfl
    exact absurd h (by decide)
  have hdots : name ≠ ".." := by
    rintro rfl
    exact absurd h (by decide)
  unfold stat statSteps
  split
  · rfl
  · change d.tree.walk _ (d.baseOf _) (name :: names) = _
    have hopen : ¬ Host.isSealed (d.baseOf (Path.ofNames (name :: names))) = true := nofun
    rw [FileTree.walk, FileTree.descend, if_neg hopen, if_neg (by simpa using hdot),
      if_neg (by simpa using hdots), if_pos h]

end Plain

end Disk

end FormatSettings
