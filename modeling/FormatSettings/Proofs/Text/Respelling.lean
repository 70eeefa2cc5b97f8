import FormatSettings.Proofs.Text.FoldedForm
import Mathlib.Logic.Relation

namespace FormatSettings.Text

/-- One change to the spelling of a text. A separator is exchanged only where it stands between characters
that are not blank. -/
inductive Respells : List Char → List Char → Prop
  | letter (before after : List Char) {c d : Char} (h : c.toLower = d.toLower) :
      Respells (before ++ c :: after) (before ++ d :: after)
  | separator (before after : List Char) {c d : Char} (hc : c ∈ separators) (hd : d ∈ separators)
      (hbefore : ∃ x ∈ before, isBlank x = false) (hafter : ∃ x ∈ after, isBlank x = false) :
      Respells (before ++ c :: after) (before ++ d :: after)
  | margins (front text back front' back' : List Char)
      (hblank : ∀ x ∈ front ++ back ++ front' ++ back', isBlank x = true) :
      Respells (front ++ text ++ back) (front' ++ text ++ back')

variable {c d : Char} {cs ds : List Char}

theorem isAlpha_iff :
    c.isAlpha = true ↔ 65 ≤ c.toNat ∧ c.toNat ≤ 90 ∨ 97 ≤ c.toNat ∧ c.toNat ≤ 122 := by
  have hcases : c.isAlpha =
      (c.isUpper || (decide ('a'.val ≤ c.val) && decide (c.val ≤ 'z'.val))) := rfl
  rw [hcases, Bool.or_eq_true, isUpper_iff, Bool.and_eq_true, decide_eq_true_iff, decide_eq_true_iff,
    UInt32.le_iff_toNat_le, UInt32.le_iff_toNat_le]
  exact Iff.rfl

theorem eq_or_isAlpha_of_toLower_eq (h : c.toLower = d.toLower) :
    c = d ∨ c.isAlpha = true ∧ d.isAlpha = true := by
  have htoNat := congrArg Char.toNat h
  rw [toNat_toLower, toNat_toLower] at htoNat
  rw [isAlpha_iff, isAlpha_iff, ← Char.toNat_inj]
  split at htoNat <;> split at htoNat <;> omega

theorem isBlank_of_isAlpha (h : c.isAlpha = true) : isBlank c = false := by
  have hcode := isAlpha_iff.mp h
  apply isBlank_eq_false_iff.mpr
  omega

theorem isBlank_eq_of_toLower_eq (h : c.toLower = d.toLower) : isBlank c = isBlank d := by
  rcases eq_or_isAlpha_of_toLower_eq h with rfl | ⟨hc, hd⟩
  · rfl
  · rw [isBlank_of_isAlpha hc, isBlank_of_isAlpha hd]

theorem SameLoosely.apply_eq {α : Type} {f : Char → α} {a b : α}
    (hletters : ∀ c, c.isAlpha = true → f c = a) (hseparators : ∀ c ∈ separators, f c = b)
    (h : SameLoosely c d) : f c = f d := by
  rcases h with hlower | ⟨hc, hd⟩
  · rcases eq_or_isAlpha_of_toLower_eq hlower with rfl | ⟨hc, hd⟩
    · rfl
    · rw [hletters c hc, hletters d hd]
  · rw [hseparators c hc, hseparators d hd]

theorem SameLoosely.isCased_eq (h : SameLoosely c d) : isCased c = isCased d := by
  refine h.apply_eq (a := true) (b := false) ?_ (forall_mem_separators.mpr (by decide))
  intro c hc
  have hcode := isAlpha_iff.mp hc
  rw [isCased, if_pos (by omega), hc]

theorem SameLoosely.isIgnorable_eq (h : SameLoosely c d) : isIgnorable c = isIgnorable d := by
  refine h.apply_eq (a := false) (b := false) ?_ (forall_mem_separators.mpr (by decide))
  intro c hc
  have hcode := isAlpha_iff.mp hc
  rw [isIgnorable, if_pos (by omega)]
  simp only [Bool.or_eq_false_iff, beq_eq_false_iff_ne, ne_eq, ← Char.toNat_inj]
  change (((¬ c.toNat = 39 ∧ ¬ c.toNat = 46) ∧ ¬ c.toNat = 58) ∧ ¬ c.toNat = 94) ∧ ¬ c.toNat = 96
  omega

theorem SameLoosely.isSigma_eq (h : SameLoosely c d) : (c == 'Σ') = (d == 'Σ') := by
  refine h.apply_eq (f := (· == 'Σ')) (a := false) (b := false) ?_
    (forall_mem_separators.mpr (by decide))
  intro c hc
  have hcode := isAlpha_iff.mp hc
  rw [beq_eq_false_iff_ne, ne_eq, ← Char.toNat_inj]
  change ¬ c.toNat = 0x3a3
  omega

theorem SameLoosely.eq_or_ascii (h : SameLoosely c d) : c = d ∨ c.toNat < 128 ∧ d.toNat < 128 := by
  rcases h with hlower | ⟨hc, hd⟩
  · refine (eq_or_isAlpha_of_toLower_eq hlower).imp_right ?_
    rw [isAlpha_iff, isAlpha_iff]
    omega
  · rw [mem_separators_iff] at hc hd
    omega

theorem SameLoosely.map_lowerChar_eq (h : SameLoosely c d) :
    (lowerChar c).map foldSeparator = (lowerChar d).map foldSeparator := by
  rcases h.eq_or_ascii with rfl | ⟨hc, hd⟩
  · rfl
  · rw [lowerChar_of_ascii hc, lowerChar_of_ascii hd, List.map_singleton, List.map_singleton,
      foldSeparator_toLower_eq_iff.mpr h]

theorem forall₂_dropWhile {r : Char → Char → Prop} {p : Char → Bool}
    (hp : ∀ c d, r c d → p c = p d) (h : List.Forall₂ r cs ds) :
    List.Forall₂ r (cs.dropWhile p) (ds.dropWhile p) := by
  induction h with
  | nil => exact .nil
  | @cons c d cs ds hfirst hrest ih =>
    rw [List.dropWhile_cons, List.dropWhile_cons, hp c d hfirst]
    split
    · exact ih
    · exact .cons hfirst hrest

theorem reachesCased_congr (h : List.Forall₂ SameLoosely cs ds) : reachesCased cs = reachesCased ds := by
  have hdropped : List.Forall₂ SameLoosely (cs.dropWhile isIgnorable) (ds.dropWhile isIgnorable) :=
    forall₂_dropWhile (fun _ _ hsame => hsame.isIgnorable_eq) h
  unfold reachesCased
  generalize cs.dropWhile isIgnorable = rest, ds.dropWhile isIgnorable = rest' at hdropped ⊢
  cases hdropped with
  | nil => rfl
  | cons hfirst _ => exact hfirst.isCased_eq

theorem map_lowerAfter_congr {before before' : List Char}
    (hbefore : List.Forall₂ SameLoosely before before') (h : List.Forall₂ SameLoosely cs ds) :
    (lowerAfter before cs).map foldSeparator = (lowerAfter before' ds).map foldSeparator := by
  induction h generalizing before before' with
  | nil => rfl
  | @cons c d cs ds hfirst hrest ih =>
    have hcontext : isFinalSigma before cs = isFinalSigma before' ds := by
      rw [isFinalSigma, isFinalSigma, reachesCased_congr hbefore, reachesCased_congr hrest]
    rw [lowerAfter, lowerAfter, List.map_append, List.map_append, ih (.cons hfirst hbefore),
      hfirst.isSigma_eq, hcontext]
    split
    · rfl
    · rw [hfirst.map_lowerChar_eq]

theorem fold_congr (h : List.Forall₂ SameLoosely (strip cs) (strip ds)) : fold cs = fold ds :=
  map_lowerAfter_congr .nil h

theorem sameLoosely_refl (c : Char) : SameLoosely c c :=
  Or.inl rfl

theorem forall₂_strip {r : Char → Char → Prop} (hr : ∀ c d, r c d → isBlank c = isBlank d)
    (h : List.Forall₂ r cs ds) : List.Forall₂ r (strip cs) (strip ds) := by
  apply List.forall₂_reverse_iff.mpr
  apply forall₂_dropWhile hr
  apply List.forall₂_reverse_iff.mpr
  exact forall₂_dropWhile hr h

theorem dropWhile_append_of_exists {p : Char → Bool} (h : ∃ x ∈ cs, p x = false) :
    (cs ++ ds).dropWhile p = cs.dropWhile p ++ ds := by
  have hne : cs.dropWhile p ≠ [] := by
    intro hnil
    obtain ⟨x, hx, hpx⟩ := h
    rw [List.dropWhile_eq_nil_iff.mp hnil x hx] at hpx
    cases hpx
  rw [List.dropWhile_append, if_neg (by simpa using hne)]

theorem strip_between {before after : List Char} (hbefore : ∃ x ∈ before, isBlank x = false)
    (hafter : ∃ x ∈ after, isBlank x = false) :
    strip (before ++ c :: after) =
      before.dropWhile isBlank ++ c :: (after.reverse.dropWhile isBlank).reverse := by
  have hreversed : ∃ x ∈ after.reverse, isBlank x = false := by simpa using hafter
  rw [strip, stripBy, dropWhile_append_of_exists hbefore, List.reverse_append, List.reverse_cons,
    List.append_assoc, dropWhile_append_of_exists hreversed]
  simp

theorem strip_append_blanks {back : List Char} (hback : ∀ x ∈ back, isBlank x = true) :
    strip (cs ++ back) = strip cs := by
  have hnil := List.dropWhile_eq_nil_iff.mpr hback
  rw [strip, stripBy, List.dropWhile_append]
  split
  · next hcs => rw [hnil, strip, stripBy, List.isEmpty_iff.mp hcs]
  · have hreversed : ∀ x ∈ back.reverse, isBlank x = true := by simpa using hback
    rw [List.reverse_append, List.dropWhile_append_of_pos hreversed]
    rfl

theorem strip_blanks_append {front : List Char} (hfront : ∀ x ∈ front, isBlank x = true) :
    strip (front ++ cs) = strip cs := by
  rw [strip, stripBy, List.dropWhile_append_of_pos hfront]
  rfl

theorem Respells.fold_eq (h : Respells cs ds) : fold ds = fold cs := by
  symm
  -- Each change leaves loosely the same characters between the blanks.
  apply fold_congr
  cases h with
  | letter before after hlower =>
    have hsame (cs : List Char) : List.Forall₂ (fun c d => c.toLower = d.toLower) cs cs :=
      List.forall₂_same.mpr fun _ _ => rfl
    have hchanged := List.rel_append (hsame before) (.cons hlower (hsame after))
    have hstripped := forall₂_strip (fun _ _ => isBlank_eq_of_toLower_eq) hchanged
    exact hstripped.imp fun _ _ => Or.inl
  | separator before after hc hd hbefore hafter =>
    rw [strip_between hbefore hafter, strip_between hbefore hafter]
    exact List.rel_append (List.forall₂_same.mpr fun x _ => sameLoosely_refl x)
      (.cons (Or.inr ⟨hc, hd⟩) (List.forall₂_same.mpr fun x _ => sameLoosely_refl x))
  | margins front text back front' back' hblank =>
    simp only [List.forall_mem_append] at hblank
    obtain ⟨⟨⟨hfront, hback⟩, hfront'⟩, hback'⟩ := hblank
    rw [strip_append_blanks hback, strip_blanks_append hfront, strip_append_blanks hback',
      strip_blanks_append hfront']
    exact List.forall₂_same.mpr fun x _ => sameLoosely_refl x

theorem fold_eq_of_respelled (h : Relation.ReflTransGen Respells cs ds) : fold ds = fold cs := by
  induction h with
  | refl => rfl
  | tail _ hstep ih => exact hstep.fold_eq.trans ih

/-- A folded token folds to itself. It has no dash, no space and no capital letter of ASCII, and no blank at
either end; and every respelling of a token, change by change, folds to the same one. -/
theorem folded_token_is_canonical (s : String) :
    foldToken (foldToken s) = foldToken s ∧
      (∀ c ∈ (foldToken s).toList, c ≠ '-' ∧ c ≠ ' ' ∧ c.isUpper = false) ∧
      (∀ c, (foldToken s).toList.head? = some c ∨ (foldToken s).toList.getLast? = some c →
        isBlank c = false) ∧
      ∀ t : String, Relation.ReflTransGen Respells s.toList t.toList → foldToken t = foldToken s := by
  have htoList : (foldToken s).toList = fold s.toList := String.toList_ofList
  rw [htoList]
  refine ⟨?_, ?_, ?_, ?_⟩
  · rw [foldToken, htoList, fold_fold, foldToken]
  · intro c hc
    have hseparator := eq_of_mem_fold hc
    refine ⟨?_, ?_, isUpper_of_mem_fold hc⟩
    · rintro rfl
      exact absurd (hseparator (by decide)) (by decide)
    · rintro rfl
      exact absurd (hseparator (by decide)) (by decide)
  · rintro c (hhead | hlast)
    · exact (isTrimmed_fold _).head c hhead
    · exact (isTrimmed_fold _).last c hlast
  · intro t ht
    rw [foldToken, foldToken, fold_eq_of_respelled ht]

theorem folded_token_is_canonical_sigma :
    Relation.ReflTransGen Respells "\u3000ΑΣ-b \t".toList "ΑΣ B".toList ∧
      foldToken "ΑΣ B" = foldToken "\u3000ΑΣ-b \t" ∧ foldToken "ΑΣ B" = "ας_b" := by
  have hspace : Respells "\u3000ΑΣ-b \t".toList "\u3000ΑΣ b \t".toList :=
    .separator ['\u3000', 'Α', 'Σ'] ['b', ' ', '\t'] (by decide) (by decide)
      ⟨'Α', by decide, by decide⟩ ⟨'b', by decide, by decide⟩
  have hcapital : Respells "\u3000ΑΣ b \t".toList "\u3000ΑΣ B \t".toList :=
    .letter ['\u3000', 'Α', 'Σ', ' '] [' ', '\t'] (by decide)
  have hmargins : Respells "\u3000ΑΣ B \t".toList "ΑΣ B".toList :=
    .margins ['\u3000'] ['Α', 'Σ', ' ', 'B'] [' ', '\t'] [] [] (List.all_eq_true.mp (by decide))
  have hrespelled := ((Relation.ReflTransGen.single hspace).tail hcapital).tail hmargins
  obtain ⟨-, -, -, hfold⟩ := folded_token_is_canonical "\u3000ΑΣ-b \t"
  exact ⟨hrespelled, hfold "ΑΣ B" hrespelled, by decide +kernel⟩

end FormatSettings.Text
