import FormatSettings.Proofs.Config.ProfileToken
import FormatSettings.Proofs.Text.Folding
import Mathlib.Data.Nat.Digits.Defs

namespace FormatSettings.Text

def IsDecimal (c : Char) : Prop :=
  (digitValue? c).isSome = true

instance (c : Char) : Decidable (IsDecimal c) :=
  inferInstanceAs (Decidable (_ = true))

structure Writes (cs : List Char) (n : Nat) : Prop where
  nonempty : cs ≠ []
  short : cs.length ≤ digitLimit
  decimal : ∀ c ∈ cs, IsDecimal c
  value : Nat.ofDigits 10 (cs.reverse.map fun c => (digitValue? c).getD 0) = n

variable {c : Char} {cs : List Char} {n : Nat}

theorem digitsValue_eq_ofDigits (cs : List Char) :
    digitsValue 0 cs = Nat.ofDigits 10 (cs.reverse.map fun c => (digitValue? c).getD 0) := by
  simp only [digitsValue, Nat.ofDigits_eq_foldr, List.foldr_map, List.foldr_reverse, Nat.cast_id,
    Nat.add_comm]

def zeros : List Nat :=
  '0'.toNat :: digitZeros

def IsDecimalCode (n : Nat) : Prop :=
  ∃ z ∈ zeros, z ≤ n ∧ n < z + 10

theorem digitZeros_beyond : ∀ z ∈ digitZeros, 128 ≤ z := by
  decide

theorem isDecimalCode_ascii_iff (h : n < 128) : IsDecimalCode n ↔ 48 ≤ n ∧ n < 58 := by
  have hbeyond : ¬ ∃ z ∈ digitZeros, z ≤ n ∧ n < z + 10 := by
    rintro ⟨z, hz, hle, -⟩
    have := digitZeros_beyond z hz
    omega
  rw [IsDecimalCode, zeros, List.exists_mem_cons_iff, or_iff_left hbeyond]
  exact Iff.rfl

theorem isDecimal_iff : IsDecimal c ↔ IsDecimalCode c.toNat := by
  unfold IsDecimal digitValue?
  by_cases hascii : c.toNat < 128
  · have hdigit : c.isDigit = true ↔ 48 ≤ c.toNat ∧ c.toNat < 58 := by
      rw [Char.isDigit_iff_toNat, Nat.lt_succ_iff]
      exact Iff.rfl
    rw [if_pos hascii, isDecimalCode_ascii_iff hascii, ← hdigit]
    cases c.isDigit <;> simp
  · have hnot : ¬ ('0'.toNat ≤ c.toNat ∧ c.toNat < '0'.toNat + 10) := fun h =>
      hascii (h.2.trans (by decide))
    rw [if_neg hascii, IsDecimalCode, zeros, List.exists_mem_cons_iff, or_iff_right hnot]
    simp

def misses (first last z : Nat) : Bool :=
  Nat.blt last z || Nat.ble (z + 10) first

theorem misses_iff {first last z : Nat} :
    misses first last z = true ↔ last < z ∨ z + 10 ≤ first := by
  simp [misses]

def missDigits (runs : List CaseRun) : Bool :=
  runs.all fun r => zeros.all fun z => misses r.first r.last z && misses r.target r.lastTarget z

theorem lowerRuns_miss_digits : missDigits lowerRuns = true := by
  decide +kernel

theorem mapRuns_eq_or {runs : List CaseRun} (hruns : missDigits runs = true) (m : Nat) :
    mapRuns runs m = m ∨ ¬ IsDecimalCode m ∧ ¬ IsDecimalCode (mapRuns runs m) := by
  refine (mapRuns_cases runs m).imp_right ?_
  rintro ⟨r, hr, hcovers, hmaps⟩
  have hmisses (z : Nat) (hz : z ∈ zeros) : (r.last < z ∨ z + 10 ≤ r.first) ∧
      (r.target + (r.last - r.first) < z ∨ z + 10 ≤ r.target) := by
    have hall := List.all_eq_true.mp (List.all_eq_true.mp hruns r hr) z hz
    rwa [Bool.and_eq_true, misses_iff, misses_iff] at hall
  rw [hmaps]
  constructor <;>
  · rintro ⟨z, hz, hfrom, hto⟩
    have := hmisses z hz
    omega

theorem ofNat_mapRuns_eq_or {runs : List CaseRun} (hruns : missDigits runs = true)
    (hvalid : ∀ r ∈ runs, r.IsValid) (c : Char) :
    Char.ofNat (mapRuns runs c.toNat) = c ∨
      ¬ IsDecimal c ∧ ¬ IsDecimal (Char.ofNat (mapRuns runs c.toNat)) := by
  rw [isDecimal_iff, isDecimal_iff, toNat_ofNat_mapRuns hvalid]
  refine (mapRuns_eq_or hruns c.toNat).imp_left fun hsame => ?_
  rw [hsame, Char.ofNat_toNat]

theorem lowerChar_eq_or (c : Char) :
    lowerChar c = [c] ∨ ¬ IsDecimal c ∧ ∃ x ∈ lowerChar c, ¬ IsDecimal x := by
  by_cases hascii : c.toNat < 128
  · rw [lowerChar_of_ascii hascii]
    by_cases hupper : 65 ≤ c.toNat ∧ c.toNat ≤ 90
    · have hlower : c.toLower.toNat = c.toNat + 32 := by rw [toNat_toLower, if_pos hupper]
      refine Or.inr ⟨?_, _, List.mem_singleton.mpr rfl, ?_⟩ <;>
      · rw [isDecimal_iff, isDecimalCode_ascii_iff (by omega)]
        omega
    · refine Or.inl (congrArg (fun c => [c]) (Char.toNat_inj.mp ?_))
      rw [toNat_toLower, if_neg hupper]
  · unfold lowerChar
    rw [if_neg hascii]
    split
    · next hdotted =>
      -- The dotted capital letter is the only one with a lower case of two characters.
      have hc : c = 'İ' := Char.toNat_inj.mp (beq_iff_eq.mp hdotted)
      subst hc
      exact Or.inr ⟨by decide, 'i', List.mem_cons_self, by decide⟩
    · rcases ofNat_mapRuns_eq_or lowerRuns_miss_digits lowerRuns_valid c with hsame | ⟨hfrom, hto⟩
      · rw [hsame]
        exact Or.inl rfl
      · exact Or.inr ⟨hfrom, _, List.mem_singleton.mpr rfl, hto⟩

theorem lower_of_decimal (h : ∀ c ∈ cs, IsDecimal c) : lower cs = cs :=
  lower_eq_self fun c hc => (lowerChar_eq_or c).resolve_right fun hnot => hnot.1 (h c hc)

theorem decimal_of_lower (h : ∀ x ∈ lower cs, IsDecimal x) : ∀ c ∈ cs, IsDecimal c := by
  intro c hc
  rcases lowerChar_subset_lowerAfter [] hc with hlower | hsigma
  · rcases lowerChar_eq_or c with hsame | ⟨-, x, hx, hnot⟩
    · rw [hsame] at hlower
      exact h c (hlower (List.mem_singleton.mpr rfl))
    · exact absurd (h x (hlower hx)) hnot
  · exact absurd (h _ hsigma) (by decide)

theorem foldSeparator_of_decimal (h : IsDecimal c) : foldSeparator c = c := by
  have hnot : ∀ c ∈ separators, ¬ IsDecimal c := forall_mem_separators.mpr (by decide)
  exact foldSeparator_of_not_mem fun hc => hnot c hc h

theorem isDecimal_of_foldSeparator (h : IsDecimal (foldSeparator c)) : IsDecimal c := by
  by_cases hc : c ∈ separators
  · rw [foldSeparator_of_mem hc] at h
    exact absurd h (by decide)
  · rwa [foldSeparator_of_not_mem hc] at h

theorem fold_of_decimal (h : ∀ c ∈ strip cs, IsDecimal c) : fold cs = strip cs := by
  rw [fold, lower_of_decimal h]
  calc (strip cs).map foldSeparator = (strip cs).map id :=
        List.map_congr_left fun c hc => foldSeparator_of_decimal (h c hc)
    _ = strip cs := List.map_id _

theorem decimal_of_fold (h : ∀ x ∈ fold cs, IsDecimal x) : ∀ c ∈ strip cs, IsDecimal c := by
  apply decimal_of_lower
  intro x hx
  exact isDecimal_of_foldSeparator (h _ (List.mem_map_of_mem hx))

theorem writes_fold_iff : Writes (fold cs) n ↔ Writes (strip cs) n := by
  constructor
  · intro h
    rwa [fold_of_decimal (decimal_of_fold h.decimal)] at h
  · intro h
    rwa [fold_of_decimal h.decimal]

theorem allDigits_of_writes (h : Writes cs n) : allDigits cs = true := by
  rw [allDigits, List.isEmpty_eq_false_iff.mpr h.nonempty]
  exact List.all_eq_true.mpr fun c hc => Bool.or_eq_true_iff.mpr (Or.inl (h.decimal c hc))

theorem not_unreadable_of_writes (h : Writes cs n) : ¬ Unreadable cs := by
  rintro ⟨-, hlong | ⟨c, hc, hnone⟩⟩
  · exact absurd h.short (Nat.not_le.mpr hlong)
  · exact Option.isSome_iff_ne_none.mp (h.decimal c hc) hnone

theorem readDigits_eq_ok_iff (hdigits : allDigits cs = true) :
    readDigits cs = .ok n ↔ Writes cs n := by
  have hfails := readDigits_eq_error_iff hdigits
  cases hread : readDigits cs with
  | ok m =>
    obtain ⟨hdecimal, hvalue⟩ := readDigits_eq_ok hdigits hread
    rw [digitsValue_eq_ofDigits] at hvalue
    rw [Except.ok.injEq]
    constructor
    · rintro rfl
      refine ⟨ne_nil_of_allDigits hdigits, ?_, hdecimal, hvalue⟩
      by_contra hlong
      obtain ⟨fault, hfault⟩ := hfails.mpr ⟨hdigits, Or.inl (Nat.not_le.mp hlong)⟩
      cases hread.symm.trans hfault
    · intro h
      exact hvalue.symm.trans h.value
  | error fault =>
    exact iff_of_false nofun fun h => not_unreadable_of_writes h (hfails.mp ⟨fault, hread⟩)

end FormatSettings.Text
