import FormatSettings.Proofs.Text.FoldedDigits
import FormatSettings.Proofs.Text.UpperCase

namespace FormatSettings.Text

variable {c : Char} {cs : List Char} {n : Nat}

theorem upperRuns_miss_digits : missDigits upperRuns = true := by
  decide +kernel

theorem upperExpansions_miss_digits : ∀ e ∈ upperExpansions,
    (zeros.all fun z => misses e.1 e.1 z) = true ∧ ∃ m ∈ e.2, ¬ IsDecimal (Char.ofNat m) := by
  decide +kernel

theorem not_isDecimal_of_misses (h : (zeros.all fun z => misses c.toNat c.toNat z) = true) :
    ¬ IsDecimal c := by
  rw [isDecimal_iff]
  rintro ⟨z, hz, hfrom, hto⟩
  have := misses_iff.mp (List.all_eq_true.mp h z hz)
  omega

theorem upperChar_eq_or (c : Char) :
    upperChar c = [c] ∨ ¬ IsDecimal c ∧ ∃ x ∈ upperChar c, ¬ IsDecimal x := by
  by_cases hascii : c.toNat < 128
  · rw [upperChar_of_ascii hascii]
    by_cases hlower : 97 ≤ c.toNat ∧ c.toNat ≤ 122
    · have hupper : c.toUpper.toNat = c.toNat - 32 := by rw [toNat_toUpper, if_pos hlower]
      refine Or.inr ⟨?_, _, List.mem_singleton.mpr rfl, ?_⟩ <;>
      · rw [isDecimal_iff, isDecimalCode_ascii_iff (by omega)]
        omega
    · refine Or.inl (congrArg (fun c => [c]) (Char.toNat_inj.mp ?_))
      rw [toNat_toUpper, if_neg hlower]
  · unfold upperChar
    rw [if_neg hascii]
    split
    · next ns hns =>
      -- Expansions start from no digit and hold a character that is none.
      obtain ⟨hmisses, m, hm, hyields⟩ := upperExpansions_miss_digits _ (mem_of_lookup hns)
      exact Or.inr ⟨not_isDecimal_of_misses hmisses, _, List.mem_map_of_mem hm, hyields⟩
    · rcases ofNat_mapRuns_eq_or upperRuns_miss_digits upperRuns_valid c with hsame | ⟨hfrom, hto⟩
      · rw [hsame]
        exact Or.inl rfl
      · exact Or.inr ⟨hfrom, _, List.mem_singleton.mpr rfl, hto⟩

theorem upper_of_decimal (h : ∀ c ∈ cs, IsDecimal c) : upper cs = cs := by
  have hsame : ∀ c ∈ cs, upperChar c = [c] := fun c hc =>
    (upperChar_eq_or c).resolve_right fun hnot => hnot.1 (h c hc)
  rw [upper, List.flatMap_congr hsame, List.flatMap_singleton']

theorem decimal_of_upper (h : ∀ x ∈ upper cs, IsDecimal x) : ∀ c ∈ cs, IsDecimal c := by
  intro c hc
  rcases upperChar_eq_or c with hsame | ⟨-, x, hx, hnot⟩
  · exact h c (List.mem_flatMap.mpr ⟨c, hc, hsame ▸ List.mem_singleton.mpr rfl⟩)
  · exact absurd (h x (List.mem_flatMap.mpr ⟨c, hc, hx⟩)) hnot

theorem writes_upper_iff : Writes (upper cs) n ↔ Writes cs n := by
  constructor
  · intro h
    rwa [upper_of_decimal (decimal_of_upper h.decimal)] at h
  · intro h
    rwa [upper_of_decimal h.decimal]

end FormatSettings.Text
