import FormatSettings.Proofs.Config.Unloadable

namespace FormatSettings

theorem Text.readDigits_eq_ok {cs : List Char} {n : Nat} (hdigits : allDigits cs = true)
    (h : readDigits cs = .ok n) : (∀ c ∈ cs, (digitValue? c).isSome = true) ∧ digitsValue 0 cs = n := by
  constructor
  · intro c hc
    refine Option.isSome_iff_ne_none.mpr fun hnone => ?_
    obtain ⟨fault, hfault⟩ := (readDigits_eq_error_iff hdigits).mpr ⟨hdigits, Or.inr ⟨c, hc, hnone⟩⟩
    cases h.symm.trans hfault
  · unfold readDigits at h
    simp only at h
    split at h
    · cases h
    · split at h
      · cases h
      · exact Except.ok.inj h

namespace Profile

theorem withCode?_eq_some_iff {n : Nat} {p : Profile} : withCode? n = some p ↔ n = p.code := by
  constructor
  · intro h
    have hcode := List.find?_some h
    exact (beq_iff_eq.mp hcode).symm
  · rintro rfl
    cases p <;> rfl

theorem find?_foldedNames_eq_some_iff {name : String} {p : Profile} :
    all.find? (·.foldedNames.contains name) = some p ↔ name ∈ p.foldedNames := by
  constructor
  · intro h
    have hname := List.find?_some h
    exact List.contains_iff_mem.mp hname
  · have hfind : ∀ name ∈ p.foldedNames, all.find? (·.foldedNames.contains name) = some p := by
      cases p <;> decide +kernel
    exact hfind name

theorem withIntCode?_eq_some_iff {i : Int} {p : Profile} : withIntCode? i = some p ↔ i = p.code := by
  cases i with
  | ofNat n => rw [withIntCode?, withCode?_eq_some_iff, Int.ofNat_eq_natCast, Int.natCast_inj]
  | negSucc n => exact iff_of_false nofun nofun

theorem foldToken_not_mem_foldedNames {s : String} (p : Profile)
    (h : Text.allDigits (Text.fold s.toList) = true) : Text.foldToken s ∉ p.foldedNames := by
  have hnames : ∀ name ∈ p.foldedNames, Text.allDigits name.toList = false := by
    cases p <;> decide +kernel
  intro hmem
  have hnot := hnames _ hmem
  rw [Text.foldToken, String.toList_ofList, h] at hnot
  cases hnot

variable {v : Value} {p : Profile}

end Profile

namespace Draft

variable {t : Table} {file : Option String} {d : Draft}

end Draft

end FormatSettings
