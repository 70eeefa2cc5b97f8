import FormatSettings.Proofs.Text.CaseRuns
import FormatSettings.Text.Token

namespace FormatSettings.Text

def separators : List Char :=
  ['-', '_', ' ']

def SameLoosely (c d : Char) : Prop :=
  c.toLower = d.toLower ∨ c ∈ separators ∧ d ∈ separators

instance (c d : Char) : Decidable (SameLoosely c d) :=
  inferInstanceAs (Decidable (_ ∨ _))

def Spells (s word : String) : Prop :=
  List.Forall₂ SameLoosely (strip s.toList) word.toList

instance (s word : String) : Decidable (Spells s word) :=
  inferInstanceAs (Decidable (List.Forall₂ _ _ _))

structure IsPlain (cs : List Char) : Prop where
  stripped : strip cs = cs
  ascii : ∀ c ∈ cs, c.toNat < 128
  noKelvin : ∀ c ∈ cs, c.toLower ≠ 'k'

theorem isPlain_iff {cs : List Char} :
    IsPlain cs ↔ strip cs = cs ∧ cs.all fun c => decide (c.toNat < 128) && c.toLower != 'k' := by
  simp only [List.all_eq_true, Bool.and_eq_true, decide_eq_true_eq, bne_iff_ne]
  constructor
  · intro h
    exact ⟨h.stripped, fun c hc => ⟨h.ascii c hc, h.noKelvin c hc⟩⟩
  · rintro ⟨hstripped, hchars⟩
    exact ⟨hstripped, fun c hc => (hchars c hc).1, fun c hc => (hchars c hc).2⟩

instance (cs : List Char) : Decidable (IsPlain cs) :=
  decidable_of_iff _ isPlain_iff.symm

theorem forall_mem_separators {p : Char → Prop} :
    (∀ c ∈ separators, p c) ↔ p '-' ∧ p '_' ∧ p ' ' := by
  simp [separators]

theorem mem_separators_iff {c : Char} :
    c ∈ separators ↔ c.toNat = 45 ∨ c.toNat = 95 ∨ c.toNat = 32 := by
  simp only [separators, List.mem_cons, List.not_mem_nil, or_false, ← Char.toNat_inj]
  exact Iff.rfl

theorem toLower_mem_separators_iff {c : Char} : c.toLower ∈ separators ↔ c ∈ separators := by
  rw [mem_separators_iff, mem_separators_iff, toNat_toLower]
  split <;> omega

theorem foldSeparator_of_mem {c : Char} (h : c ∈ separators) : foldSeparator c = '_' := by
  have hall : ∀ c ∈ separators, foldSeparator c = '_' := forall_mem_separators.mpr (by decide)
  exact hall c h

theorem foldSeparator_of_not_mem {c : Char} (h : c ∉ separators) : foldSeparator c = c := by
  simp only [separators, List.mem_cons, not_or] at h
  simp [foldSeparator, h]

theorem foldSeparator_mem_separators_iff {c : Char} :
    foldSeparator c ∈ separators ↔ c ∈ separators := by
  by_cases h : c ∈ separators
  · rw [foldSeparator_of_mem h]
    exact iff_of_true (by decide) h
  · rw [foldSeparator_of_not_mem h]

theorem foldSeparator_eq_iff {c d : Char} :
    foldSeparator c = foldSeparator d ↔ c = d ∨ c ∈ separators ∧ d ∈ separators := by
  by_cases hsame : c ∈ separators ↔ d ∈ separators
  · by_cases hc : c ∈ separators
    · have hd := hsame.mp hc
      simp [foldSeparator_of_mem, hc, hd]
    · have hd := mt hsame.mpr hc
      simp [foldSeparator_of_not_mem, hc, hd]
  · refine iff_of_false (fun h => hsame ?_) ?_
    · rw [← foldSeparator_mem_separators_iff, h, foldSeparator_mem_separators_iff]
    · rintro (rfl | ⟨hc, hd⟩)
      · exact hsame Iff.rfl
      · exact hsame (iff_of_true hc hd)

theorem foldSeparator_toLower_eq_iff {c d : Char} :
    foldSeparator c.toLower = foldSeparator d.toLower ↔ SameLoosely c d := by
  rw [foldSeparator_eq_iff, toLower_mem_separators_iff, toLower_mem_separators_iff, SameLoosely]

theorem lowerRuns_valid : ∀ r ∈ lowerRuns, r.IsValid := by
  decide +kernel

theorem lowerRuns_foreign :
    ∀ r ∈ lowerRuns, 128 ≤ r.target ∨ r.first = r.last ∧ r.target = 'k'.toNat := by
  decide +kernel

theorem lowerChar_of_ascii {c : Char} (h : c.toNat < 128) : lowerChar c = [c.toLower] :=
  if_pos h

def IsForeign (c : Char) : Prop :=
  128 ≤ c.toNat ∨ c = 'k'

theorem exists_isForeign_mem_lowerChar {c : Char} (h : 128 ≤ c.toNat) :
    ∃ x ∈ lowerChar c, IsForeign x := by
  unfold lowerChar
  rw [if_neg (Nat.not_lt.mpr h)]
  split
  · exact ⟨'\u0307', by simp, Or.inl (by decide)⟩
  · refine ⟨_, List.mem_singleton.mpr rfl, ?_⟩
    rw [IsForeign, ← Char.toNat_inj, toNat_ofNat_mapRuns lowerRuns_valid]
    rcases mapRuns_cases lowerRuns c.toNat with hsame | ⟨r, hr, hcovers, hmaps⟩
    · exact Or.inl (hsame.symm ▸ h)
    · have hr := lowerRuns_foreign r hr
      rw [hmaps]
      omega

theorem lowerChar_subset_lowerAfter {c : Char} {cs : List Char} (before : List Char) (h : c ∈ cs) :
    lowerChar c ⊆ lowerAfter before cs ∨ 'ς' ∈ lowerAfter before cs := by
  induction cs generalizing before with
  | nil => cases h
  | cons d rest ih =>
    rw [lowerAfter]
    rcases List.mem_cons.mp h with rfl | hrest
    · split
      · next hsigma =>
        rw [beq_iff_eq.mp hsigma]
        split
        · exact Or.inr (List.mem_append_left _ (List.mem_singleton.mpr rfl))
        · exact Or.inl (List.subset_append_of_subset_left _ (by decide +kernel))
      · exact Or.inl (List.subset_append_left _ _)
    · refine (ih (d :: before) hrest).imp ?_ ?_
      · exact List.subset_append_of_subset_right _
      · exact List.mem_append_right _

theorem lowerAfter_eq_map {f : Char → Char} {cs : List Char} (before : List Char)
    (h : ∀ c ∈ cs, c ≠ 'Σ' ∧ lowerChar c = [f c]) : lowerAfter before cs = cs.map f := by
  induction cs generalizing before with
  | nil => rfl
  | cons c rest ih =>
    obtain ⟨hsigma, hlower⟩ := h c List.mem_cons_self
    rw [lowerAfter, if_neg (by simpa using hsigma), hlower, List.map_cons,
      ih _ fun d hd => h d (List.mem_cons_of_mem c hd)]
    rfl

theorem lower_eq_self {cs : List Char} (h : ∀ c ∈ cs, lowerChar c = [c]) : lower cs = cs := by
  have hmap : lower cs = cs.map id := by
    refine lowerAfter_eq_map [] fun c hc => ⟨?_, h c hc⟩
    rintro rfl
    exact absurd (h _ hc) (by decide +kernel)
  rw [hmap, List.map_id]

theorem lower_of_ascii {cs : List Char} (h : ∀ c ∈ cs, c.toNat < 128) :
    lower cs = cs.map Char.toLower := by
  refine lowerAfter_eq_map [] fun c hc => ⟨?_, lowerChar_of_ascii (h c hc)⟩
  rintro rfl
  exact absurd (h _ hc) (by decide)

theorem ascii_of_lower {cs : List Char} (h : ∀ x ∈ lower cs, ¬ IsForeign x) :
    ∀ c ∈ cs, c.toNat < 128 := by
  intro c hc
  by_contra hbeyond
  obtain ⟨x, hx, hforeign⟩ := exists_isForeign_mem_lowerChar (Nat.not_lt.mp hbeyond)
  rcases lowerChar_subset_lowerAfter [] hc with hlower | hsigma
  · exact h x (hlower hx) hforeign
  · exact h _ hsigma (Or.inl (by decide))

theorem isForeign_foldSeparator_iff {c : Char} : IsForeign (foldSeparator c) ↔ IsForeign c := by
  by_cases h : c ∈ separators
  · have hnot : ∀ c ∈ separators, ¬ IsForeign c := by
      rw [forall_mem_separators]
      unfold IsForeign
      decide
    rw [foldSeparator_of_mem h]
    exact iff_of_false (hnot _ (by decide)) (hnot c h)
  · rw [foldSeparator_of_not_mem h]

theorem IsPlain.not_isForeign {cs : List Char} {c : Char} (h : IsPlain cs) (hc : c ∈ cs) :
    ¬ IsForeign c.toLower := by
  have hascii := h.ascii c hc
  rintro (hbeyond | hkelvin)
  · rw [toNat_toLower] at hbeyond
    split at hbeyond <;> omega
  · exact h.noKelvin c hc hkelvin

theorem ascii_of_forall₂ {cs ds : List Char} (h : List.Forall₂ SameLoosely cs ds)
    (hds : ∀ d ∈ ds, d.toNat < 128) : ∀ c ∈ cs, c.toNat < 128 := by
  induction h with
  | nil => exact hds
  | @cons c d cs ds hsame _ ih =>
    simp only [List.forall_mem_cons] at hds ⊢
    refine ⟨?_, ih hds.2⟩
    rcases hsame with hlower | ⟨hc, -⟩
    · have htoNat := congrArg Char.toNat hlower
      rw [toNat_toLower, toNat_toLower] at htoNat
      have hd := hds.1
      split at htoNat <;> split at htoNat <;> omega
    · rw [mem_separators_iff] at hc
      omega

theorem map_fold_eq_iff {cs ds : List Char} :
    (cs.map Char.toLower).map foldSeparator = (ds.map Char.toLower).map foldSeparator ↔
      List.Forall₂ SameLoosely cs ds := by
  simp only [List.map_map, ← List.forall₂_eq_eq_eq, List.forall₂_map_left_iff,
    List.forall₂_map_right_iff, Function.comp_apply, foldSeparator_toLower_eq_iff]

theorem fold_eq_fold_iff {cs word : List Char} (hword : IsPlain word) :
    fold cs = fold word ↔ List.Forall₂ SameLoosely (strip cs) word := by
  have hfold : fold word = (word.map Char.toLower).map foldSeparator := by
    rw [fold, hword.stripped, lower_of_ascii hword.ascii]
  rw [hfold, ← map_fold_eq_iff, fold]
  constructor
  · intro h
    -- Beyond ASCII a character would leave a foreign one in the fold, and that of the word has none.
    have hascii : ∀ c ∈ strip cs, c.toNat < 128 := by
      apply ascii_of_lower
      intro x hx hforeign
      have hmem := List.mem_map_of_mem (f := foldSeparator) hx
      rw [h, List.map_map] at hmem
      obtain ⟨d, hd, heq⟩ := List.mem_map.mp hmem
      rw [← isForeign_foldSeparator_iff, ← heq, Function.comp_apply,
        isForeign_foldSeparator_iff] at hforeign
      exact hword.not_isForeign hd hforeign
    rwa [lower_of_ascii hascii] at h
  · intro h
    rwa [lower_of_ascii (ascii_of_forall₂ (map_fold_eq_iff.mp h) hword.ascii)]

theorem foldToken_eq_iff_spells {s word : String} (hword : IsPlain word.toList) :
    foldToken s = foldToken word ↔ Spells s word := by
  rw [foldToken, foldToken, String.ofList_inj]
  exact fold_eq_fold_iff hword

theorem mem_map_foldToken_iff {s : String} {words : List String}
    (h : ∀ word ∈ words, IsPlain word.toList) :
    foldToken s ∈ words.map foldToken ↔ ∃ word ∈ words, Spells s word := by
  rw [List.mem_map]
  refine exists_congr fun word => and_congr_right fun hword => ?_
  rw [eq_comm]
  exact foldToken_eq_iff_spells (h word hword)

theorem Spells.ascii {s word : String} (h : Spells s word) (hword : IsPlain word.toList) :
    ∀ c ∈ strip s.toList, c.toNat < 128 :=
  ascii_of_forall₂ h hword.ascii

end FormatSettings.Text
