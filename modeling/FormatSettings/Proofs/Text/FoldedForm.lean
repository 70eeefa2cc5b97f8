import FormatSettings.Proofs.Text.Folding
import Mathlib.Data.List.DropRight

/-!
The form of folded text. Lower case yields only characters that it leaves alone, and none that is blank unless
it was blank before; so a folded text has no blanks around it, is in lower case with one separator only, and
folds to itself.
-/

namespace FormatSettings.Text

variable {c x : Char} {cs : List Char}

namespace CaseRun

def isApartFrom (r q : CaseRun) : Bool :=
  Nat.blt r.lastTarget q.first || Nat.blt q.last r.target ||
    (r.step == 2 && q.step == 2 && (r.target + q.first) % 2 == 1) ||
    (r.first == r.last && !q.covers r.target)

theorem covers_map {r q : CaseRun} {n : Nat} (h : r.isApartFrom q = true)
    (hr : r.covers n = true) : q.covers (r.map n) = false := by
  rw [covers_iff] at hr
  simp only [isApartFrom, Bool.or_eq_true, Bool.and_eq_true, Nat.blt_eq, beq_iff_eq,
    Bool.not_eq_true'] at h
  rcases h with ((hbefore | hbehind) | ⟨⟨hrstep, hqstep⟩, hodd⟩) | ⟨hsingle, hmissed⟩
  · rw [← Bool.not_eq_true, covers_iff, map]
    unfold lastTarget at hbefore
    omega
  · rw [← Bool.not_eq_true, covers_iff, map]
    omega
  · -- Both runs go by twos, and the distance between them is odd.
    rw [← Bool.not_eq_true, covers_iff, map, hqstep]
    rw [hrstep] at hr
    omega
  · have hmap : r.map n = r.target := by
      rw [map]
      omega
    rw [hmap, hmissed]

end CaseRun

theorem lowerRuns_apart : (lowerRuns.all fun r => lowerRuns.all r.isApartFrom) = true := by
  decide +kernel

theorem mapRuns_lowerRuns_again (n : Nat) :
    mapRuns lowerRuns (mapRuns lowerRuns n) = mapRuns lowerRuns n := by
  rcases mapRuns_eq_or_covers lowerRuns n with hsame | ⟨r, hr, hcovers, hmaps⟩
  · rw [hsame, hsame]
  · have hnone : lowerRuns.find? (·.covers (r.map n)) = none := by
      apply List.find?_eq_none.mpr
      intro q hq
      have hapart := List.all_eq_true.mp (List.all_eq_true.mp lowerRuns_apart r hr) q hq
      simp [CaseRun.covers_map hapart hcovers]
    rw [hmaps, mapRuns, hnone]

def IsSettled (c : Char) : Prop :=
  lowerChar c = [c]

instance (c : Char) : Decidable (IsSettled c) :=
  inferInstanceAs (Decidable (_ = _))

theorem isSettled_ascii_iff (h : c.toNat < 128) : IsSettled c ↔ ¬ (65 ≤ c.toNat ∧ c.toNat ≤ 90) := by
  rw [IsSettled, lowerChar_of_ascii h, List.singleton_inj, ← Char.toNat_inj, toNat_toLower]
  split <;> omega

theorem lowerRuns_miss_dotted : ∀ r ∈ lowerRuns, r.lastTarget < 0x130 ∨ 0x130 < r.target := by
  decide +kernel

theorem isSettled_ofNat_mapRuns (hc : 128 ≤ c.toNat) (hdotted : c.toNat ≠ 0x130) :
    IsSettled (Char.ofNat (mapRuns lowerRuns c.toNat)) := by
  have htoNat := toNat_ofNat_mapRuns lowerRuns_valid c
  by_cases hascii : mapRuns lowerRuns c.toNat < 128
  · -- Only the Kelvin sign comes to ASCII, and there to a letter in lower case.
    rw [isSettled_ascii_iff (by omega), htoNat]
    rcases mapRuns_cases lowerRuns c.toNat with hsame | ⟨r, hr, hcovers, hmaps⟩
    · omega
    · have hk : 'k'.toNat = 107 := rfl
      have := lowerRuns_foreign r hr
      omega
  · have hnotDotted : mapRuns lowerRuns c.toNat ≠ 0x130 := by
      rcases mapRuns_cases lowerRuns c.toNat with hsame | ⟨r, hr, hcovers, hmaps⟩
      · rwa [hsame]
      · have hmisses := lowerRuns_miss_dotted r hr
        unfold CaseRun.lastTarget at hmisses
        omega
    rw [IsSettled, lowerChar, htoNat, if_neg hascii, if_neg (by simpa using hnotDotted),
      mapRuns_lowerRuns_again]

theorem isSettled_of_mem_lowerChar (h : x ∈ lowerChar c) : IsSettled x := by
  by_cases hascii : c.toNat < 128
  · rw [lowerChar_of_ascii hascii, List.mem_singleton] at h
    have htoNat := toNat_toLower c
    rw [h, isSettled_ascii_iff] <;>
    · split at htoNat <;> omega
  · unfold lowerChar at h
    rw [if_neg hascii] at h
    split at h
    · have hboth : ∀ x ∈ ['i', '\u0307'], IsSettled x := by
        rw [List.forall_mem_cons, List.forall_mem_singleton]
        decide +kernel
      exact hboth x h
    · next hdotted =>
      rw [List.mem_singleton.mp h]
      exact isSettled_ofNat_mapRuns (Nat.not_lt.mp hascii) (by simpa using hdotted)

theorem mem_lowerAfter {before : List Char} (h : x ∈ lowerAfter before cs) :
    x = 'ς' ∨ ∃ c ∈ cs, x ∈ lowerChar c := by
  induction cs generalizing before with
  | nil => cases h
  | cons c rest ih =>
    -- Only the sigma looks at its neighbours, and it has two forms.
    rw [lowerAfter, List.mem_append] at h
    rcases h with hfirst | hrest
    · split at hfirst
      · next hsigma =>
        split at hfirst
        · exact Or.inl (List.mem_singleton.mp hfirst)
        · have hlower : lowerChar 'Σ' = ['σ'] := by decide +kernel
          refine Or.inr ⟨c, List.mem_cons_self, ?_⟩
          rwa [beq_iff_eq.mp hsigma, hlower]
      · exact Or.inr ⟨c, List.mem_cons_self, hfirst⟩
    · refine (ih hrest).imp_right ?_
      rintro ⟨d, hd, hx⟩
      exact ⟨d, List.mem_cons_of_mem c hd, hx⟩

theorem isSettled_of_mem_lower (h : x ∈ lower cs) : IsSettled x := by
  rcases mem_lowerAfter h with rfl | ⟨c, -, hx⟩
  · decide +kernel
  · exact isSettled_of_mem_lowerChar hx

theorem IsSettled.foldSeparator (h : IsSettled c) : IsSettled (foldSeparator c) := by
  by_cases hc : c ∈ separators
  · rw [foldSeparator_of_mem hc]
    decide +kernel
  · rwa [foldSeparator_of_not_mem hc]

theorem isSettled_of_mem_fold (h : x ∈ fold cs) : IsSettled x := by
  obtain ⟨y, hy, rfl⟩ := List.mem_map.mp h
  exact (isSettled_of_mem_lower hy).foldSeparator

theorem foldSeparator_foldSeparator (c : Char) : foldSeparator (foldSeparator c) = foldSeparator c := by
  by_cases hc : c ∈ separators
  · rw [foldSeparator_of_mem hc]
    rfl
  · rw [foldSeparator_of_not_mem hc, foldSeparator_of_not_mem hc]

structure IsTrimmed (cs : List Char) : Prop where
  head : ∀ c, cs.head? = some c → isBlank c = false
  last : ∀ c, cs.getLast? = some c → isBlank c = false

theorem not_of_head?_dropWhile {p : Char → Bool} (h : (cs.dropWhile p).head? = some c) :
    p c = false := by
  have hhead := List.head?_dropWhile_not p cs
  rwa [h] at hhead

theorem isTrimmed_strip (cs : List Char) : IsTrimmed (strip cs) := by
  let front := cs.dropWhile isBlank
  have hstrip : strip cs = front.rdropWhile isBlank := rfl
  rw [hstrip]
  constructor
  · intro c hc
    obtain ⟨rest, hrest⟩ := List.head?_eq_some_iff.mp hc
    obtain ⟨back, hback⟩ := List.rdropWhile_prefix isBlank front
    apply not_of_head?_dropWhile
    change front.head? = some c
    rw [← hback, hrest]
    rfl
  · intro c hc
    rw [List.rdropWhile, List.getLast?_reverse] at hc
    exact not_of_head?_dropWhile hc

theorem IsTrimmed.strip_eq (h : IsTrimmed cs) : strip cs = cs := by
  have hfront : cs.dropWhile isBlank = cs := by
    cases cs with
    | nil => rfl
    | cons c rest =>
      apply List.dropWhile_cons_of_neg
      simp [h.head c rfl]
  have hback : cs.rdropWhile isBlank = cs := by
    apply List.rdropWhile_eq_self_iff.mpr
    intro hne
    simp [h.last _ (List.getLast?_eq_some_getLast hne)]
  change (cs.dropWhile isBlank).rdropWhile isBlank = cs
  rw [hfront, hback]

theorem isBlank_eq_false_iff : isBlank c = false ↔ (c.toNat < 9 ∨ 13 < c.toNat) ∧
    (c.toNat < 28 ∨ 32 < c.toNat) ∧ c.toNat ≠ 0x85 ∧ c.toNat ≠ 0xa0 ∧ c.toNat ≠ 0x1680 ∧
    (c.toNat < 0x2000 ∨ 0x200a < c.toNat) ∧ c.toNat ≠ 0x2028 ∧ c.toNat ≠ 0x2029 ∧
    c.toNat ≠ 0x202f ∧ c.toNat ≠ 0x205f ∧ c.toNat ≠ 0x3000 := by
  simp only [isBlank, Bool.or_eq_false_iff, Bool.and_eq_false_iff, decide_eq_false_iff_not,
    beq_eq_false_iff_ne, Nat.not_le, and_assoc]

theorem lowerRuns_miss_blanks : ∀ r ∈ lowerRuns, 0xa0 < r.target ∧ r.lastTarget < 0x1680 ∨
    0x1680 < r.target ∧ r.lastTarget < 0x2000 ∨ 0x205f < r.target ∧ r.lastTarget < 0x3000 ∨
    0x3000 < r.target ∨ r.first = r.last ∧ r.target = 'k'.toNat := by
  decide +kernel

theorem isBlank_ofNat_mapRuns (hc : isBlank c = false) :
    isBlank (Char.ofNat (mapRuns lowerRuns c.toNat)) = false := by
  have htoNat := toNat_ofNat_mapRuns lowerRuns_valid c
  rcases mapRuns_cases lowerRuns c.toNat with hsame | ⟨r, hr, hcovers, hmaps⟩
  · rwa [hsame, Char.ofNat_toNat]
  · have hk : 'k'.toNat = 107 := rfl
    have hmisses := lowerRuns_miss_blanks r hr
    unfold CaseRun.lastTarget at hmisses
    apply isBlank_eq_false_iff.mpr
    omega

theorem isBlank_of_mem_lowerChar (hc : isBlank c = false) (h : x ∈ lowerChar c) :
    isBlank x = false := by
  unfold lowerChar at h
  split at h
  · rw [List.mem_singleton.mp h, isBlank_eq_false_iff, toNat_toLower]
    have hcode := isBlank_eq_false_iff.mp hc
    split <;> omega
  · split at h
    · have hboth : ∀ x ∈ ['i', '\u0307'], isBlank x = false := by
        rw [List.forall_mem_cons, List.forall_mem_singleton]
        decide
      exact hboth x h
    · rw [List.mem_singleton.mp h]
      exact isBlank_ofNat_mapRuns hc

theorem lowerChar_ne_nil (c : Char) : lowerChar c ≠ [] := by
  unfold lowerChar
  split
  · exact List.cons_ne_nil _ _
  · split <;> exact List.cons_ne_nil _ _

theorem exists_lowerAfter_cons (before : List Char) (c : Char) (rest : List Char) :
    ∃ piece, piece ≠ [] ∧ (isBlank c = false → ∀ x ∈ piece, isBlank x = false) ∧
      lowerAfter before (c :: rest) = piece ++ lowerAfter (c :: before) rest := by
  refine ⟨_, ?_, ?_, rfl⟩
  · split
    · exact List.cons_ne_nil _ _
    · exact lowerChar_ne_nil c
  · intro hc x hx
    split at hx
    · split at hx <;>
      · rw [List.mem_singleton.mp hx]
        decide
    · exact isBlank_of_mem_lowerChar hc hx

theorem exists_lowerAfter_append (before cs ds : List Char) : ∃ front,
    lowerAfter before (cs ++ ds) = front ++ lowerAfter (cs.reverse ++ before) ds := by
  induction cs generalizing before with
  | nil => exact ⟨[], rfl⟩
  | cons c rest ih =>
    obtain ⟨piece, -, -, hpiece⟩ := exists_lowerAfter_cons before c (rest ++ ds)
    obtain ⟨front, hfront⟩ := ih (c :: before)
    refine ⟨piece ++ front, ?_⟩
    rw [List.cons_append, hpiece, hfront, List.append_assoc, List.reverse_cons, List.append_assoc]
    rfl

theorem IsTrimmed.lower (h : IsTrimmed cs) : IsTrimmed (lower cs) := by
  constructor
  · intro x hx
    cases cs with
    | nil => cases hx
    | cons c rest =>
      obtain ⟨piece, hne, hblank, hlower⟩ := exists_lowerAfter_cons [] c rest
      rw [Text.lower, hlower, List.head?_append_of_ne_nil _ hne] at hx
      exact hblank (h.head c rfl) x (List.mem_of_mem_head? hx)
  · intro x hx
    rcases List.eq_nil_or_concat cs with rfl | ⟨front, c, rfl⟩
    · cases hx
    · rw [List.concat_eq_append] at h hx
      obtain ⟨before, hbefore⟩ := exists_lowerAfter_append [] front [c]
      obtain ⟨piece, hne, hblank, hlower⟩ := exists_lowerAfter_cons (front.reverse ++ []) c []
      rw [Text.lower, hbefore, hlower, lowerAfter, List.append_nil,
        List.getLast?_append_of_ne_nil _ hne] at hx
      exact hblank (h.last c List.getLast?_concat) x (List.mem_of_getLast? hx)

theorem isBlank_foldSeparator (hc : isBlank c = false) : isBlank (foldSeparator c) = false := by
  by_cases hsep : c ∈ separators
  · rw [foldSeparator_of_mem hsep]
    rfl
  · rwa [foldSeparator_of_not_mem hsep]

theorem isTrimmed_fold (cs : List Char) : IsTrimmed (fold cs) := by
  have hlower := (isTrimmed_strip cs).lower
  constructor
  · intro c hc
    rw [fold, List.head?_map] at hc
    obtain ⟨x, hx, rfl⟩ := Option.map_eq_some_iff.mp hc
    exact isBlank_foldSeparator (hlower.head x hx)
  · intro c hc
    rw [fold, List.getLast?_map] at hc
    obtain ⟨x, hx, rfl⟩ := Option.map_eq_some_iff.mp hc
    exact isBlank_foldSeparator (hlower.last x hx)

theorem fold_fold (cs : List Char) : fold (fold cs) = fold cs := by
  calc fold (fold cs) = (lower (fold cs)).map foldSeparator := by
        rw [fold, (isTrimmed_fold cs).strip_eq]
    _ = (fold cs).map foldSeparator := by rw [lower_eq_self fun _ => isSettled_of_mem_fold]
    _ = fold cs := by
        rw [fold, List.map_map]
        exact List.map_congr_left fun c _ => foldSeparator_foldSeparator c

theorem isUpper_iff : c.isUpper = true ↔ 65 ≤ c.toNat ∧ c.toNat ≤ 90 := by
  have hrange : c.isUpper = decide ('A'.val ≤ c.val ∧ c.val ≤ 'Z'.val) := rfl
  rw [hrange, decide_eq_true_iff, UInt32.le_iff_toNat_le, UInt32.le_iff_toNat_le]
  exact Iff.rfl

theorem isUpper_of_mem_fold (h : x ∈ fold cs) : x.isUpper = false := by
  rw [← Bool.not_eq_true, isUpper_iff]
  by_cases hascii : x.toNat < 128
  · exact (isSettled_ascii_iff hascii).mp (isSettled_of_mem_fold h)
  · omega

theorem eq_of_mem_fold (h : x ∈ fold cs) (hx : x ∈ separators) : x = '_' := by
  obtain ⟨y, -, rfl⟩ := List.mem_map.mp h
  exact foldSeparator_of_mem (foldSeparator_mem_separators_iff.mp hx)

end FormatSettings.Text
