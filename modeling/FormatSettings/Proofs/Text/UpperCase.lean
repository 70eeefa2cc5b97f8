import FormatSettings.Proofs.Report
import FormatSettings.Proofs.Text.CaseRuns
import FormatSettings.Text.UpperCase

namespace FormatSettings.Text

variable {c : Char} {cs word : List Char}

theorem upperChar_of_ascii (h : c.toNat < 128) : upperChar c = [c.toUpper] :=
  if_pos h

theorem upper_of_ascii (h : ∀ c ∈ cs, c.toNat < 128) : upper cs = cs.map Char.toUpper := by
  rw [upper, List.map_eq_flatMap]
  exact List.flatMap_congr fun c hc => upperChar_of_ascii (h c hc)

theorem upperRuns_valid : ∀ r ∈ upperRuns, r.IsValid := by
  decide +kernel

theorem upperRuns_ascii :
    ∀ r ∈ upperRuns, 128 ≤ r.target ∨ r.first = r.last ∧ (r.target = 73 ∨ r.target = 83) := by
  decide +kernel

structure IsRaised (word : List Char) : Prop where
  ascii : ∀ c ∈ word, c.toNat < 128
  noDotless : 'I' ∉ word
  noLongS : 'S' ∉ word
  noExpansion : ∀ e ∈ upperExpansions, ¬ e.2.map Char.ofNat <:+: word

theorem IsRaised.not_infix_upperChar (hword : IsRaised word) (h : 128 ≤ c.toNat) :
    ¬ upperChar c <:+: word := by
  intro hinfix
  rw [upperChar, if_neg (Nat.not_lt.mpr h)] at hinfix
  split at hinfix
  · next ns hns =>
    exact hword.noExpansion _ (mem_of_lookup hns) hinfix
  · have hmem := hinfix.subset (List.mem_singleton.mpr rfl)
    have hascii := hword.ascii _ hmem
    have hdotless := ne_of_mem_of_not_mem hmem hword.noDotless
    have hlongS := ne_of_mem_of_not_mem hmem hword.noLongS
    rw [ne_eq, ← Char.toNat_inj, toNat_ofNat_mapRuns upperRuns_valid] at hdotless hlongS
    rw [toNat_ofNat_mapRuns upperRuns_valid] at hascii
    -- Of all runs two letters come to ASCII, and the word has neither of their capitals.
    rcases mapRuns_cases upperRuns c.toNat with hsame | ⟨r, hr, hcovers, hmaps⟩
    · omega
    · have hr := upperRuns_ascii r hr
      rw [hmaps] at hascii hdotless hlongS
      change _ ≠ 73 at hdotless
      change _ ≠ 83 at hlongS
      omega

theorem IsRaised.ascii_of_upper (hword : IsRaised word) (h : upper cs = word) :
    ∀ c ∈ cs, c.toNat < 128 := by
  intro c hc
  by_contra hbeyond
  have hinfix : upperChar c <:+: upper cs := List.infix_flatMap_of_mem hc _
  rw [h] at hinfix
  exact hword.not_infix_upperChar (Nat.not_lt.mp hbeyond) hinfix

theorem IsRaised.upper_eq_iff (hword : IsRaised word) (hupper : word.map Char.toUpper = word) :
    upper cs = word ↔ cs.map Char.toLower = word.map Char.toLower := by
  have hmap : cs.map Char.toUpper = word ↔ cs.map Char.toLower = word.map Char.toLower := by
    rw [← map_toUpper_eq_iff, hupper]
  rw [← hmap]
  constructor
  · intro h
    rw [← upper_of_ascii (hword.ascii_of_upper h), h]
  · intro h
    rw [upper_of_ascii ?_, h]
    intro c hc
    have hmem : c.toUpper ∈ word := h ▸ List.mem_map_of_mem hc
    have hascii := hword.ascii _ hmem
    rw [toNat_toUpper] at hascii
    split at hascii <;> omega

end FormatSettings.Text
