import FormatSettings.Text.CodePoints
import Mathlib.Data.List.Forall2

namespace FormatSettings.Text

variable {c d : Char} {runs : List CaseRun}

theorem toNat_toLower (c : Char) :
    c.toLower.toNat = if 65 ≤ c.toNat ∧ c.toNat ≤ 90 then c.toNat + 32 else c.toNat := by
  have hupper : (c.val ≥ 'A'.val ∧ c.val ≤ 'Z'.val) ↔ 65 ≤ c.toNat ∧ c.toNat ≤ 90 := by
    simp only [ge_iff_le, UInt32.le_iff_toNat_le]
    exact Iff.rfl
  unfold Char.toLower
  by_cases h : 65 ≤ c.toNat ∧ c.toNat ≤ 90
  · rw [dif_pos (hupper.mpr h), if_pos h]
    change (c.val + 32).toNat = _
    rw [UInt32.toNat_add]
    change (c.toNat + 32) % 2 ^ 32 = _
    omega
  · rw [dif_neg (mt hupper.mp h), if_neg h]

theorem toNat_toUpper (c : Char) :
    c.toUpper.toNat = if 97 ≤ c.toNat ∧ c.toNat ≤ 122 then c.toNat - 32 else c.toNat := by
  have hlower : (c.val ≥ 'a'.val ∧ c.val ≤ 'z'.val) ↔ 97 ≤ c.toNat ∧ c.toNat ≤ 122 := by
    simp only [ge_iff_le, UInt32.le_iff_toNat_le]
    exact Iff.rfl
  unfold Char.toUpper
  by_cases h : 97 ≤ c.toNat ∧ c.toNat ≤ 122
  · rw [dif_pos (hlower.mpr h), if_pos h]
    have hshift : ('A'.val - 'a'.val).toNat = 2 ^ 32 - 32 := by decide
    change (c.val + ('A'.val - 'a'.val)).toNat = c.val.toNat - 32
    change 97 ≤ c.val.toNat ∧ c.val.toNat ≤ 122 at h
    rw [UInt32.toNat_add, hshift]
    omega
  · rw [dif_neg (mt hlower.mp h), if_neg h]

theorem toUpper_eq_toUpper_iff : c.toUpper = d.toUpper ↔ c.toLower = d.toLower := by
  simp only [← Char.toNat_inj, toNat_toLower, toNat_toUpper]
  split <;> split <;> split <;> split <;> omega

theorem map_toUpper_eq_iff {cs ds : List Char} :
    cs.map Char.toUpper = ds.map Char.toUpper ↔ cs.map Char.toLower = ds.map Char.toLower := by
  simp only [← List.forall₂_eq_eq_eq, List.forall₂_map_left_iff, List.forall₂_map_right_iff,
    toUpper_eq_toUpper_iff]

def CaseRun.lastTarget (r : CaseRun) : Nat :=
  r.target + (r.last - r.first)

def CaseRun.IsValid (r : CaseRun) : Prop :=
  r.lastTarget < 0xd800 ∨ 0xe000 ≤ r.target ∧ r.lastTarget < 0x110000

instance (r : CaseRun) : Decidable r.IsValid :=
  inferInstanceAs (Decidable (_ ∨ _))

theorem CaseRun.covers_iff {r : CaseRun} {n : Nat} : r.covers n = true ↔
    (r.first ≤ n ∧ n ≤ r.last) ∧ (n - r.first) % r.step = 0 := by
  simp only [covers, Bool.and_eq_true, decide_eq_true_eq, beq_iff_eq]

theorem mapRuns_eq_or_covers (runs : List CaseRun) (n : Nat) :
    mapRuns runs n = n ∨ ∃ r ∈ runs, r.covers n = true ∧ mapRuns runs n = r.map n := by
  unfold mapRuns
  split
  · next r hr =>
    have hcovers := List.find?_some hr
    exact Or.inr ⟨r, List.mem_of_find?_eq_some hr, hcovers, rfl⟩
  · exact Or.inl rfl

theorem mapRuns_cases (runs : List CaseRun) (n : Nat) :
    mapRuns runs n = n ∨
      ∃ r ∈ runs, (r.first ≤ n ∧ n ≤ r.last) ∧ mapRuns runs n = r.target + (n - r.first) := by
  refine (mapRuns_eq_or_covers runs n).imp_right ?_
  rintro ⟨r, hr, hcovers, hmaps⟩
  exact ⟨r, hr, (CaseRun.covers_iff.mp hcovers).1, hmaps⟩

theorem toNat_ofNat_mapRuns (hruns : ∀ r ∈ runs, r.IsValid) (c : Char) :
    (Char.ofNat (mapRuns runs c.toNat)).toNat = mapRuns runs c.toNat := by
  have hvalid : (mapRuns runs c.toNat).isValidChar := by
    rcases mapRuns_cases runs c.toNat with hsame | ⟨r, hr, hcovers, hmaps⟩
    · rw [hsame]
      exact c.valid
    · have hr := hruns r hr
      unfold CaseRun.IsValid CaseRun.lastTarget at hr
      rw [hmaps, Nat.isValidChar]
      omega
  rw [Char.ofNat, dif_pos hvalid]
  rfl

end FormatSettings.Text
