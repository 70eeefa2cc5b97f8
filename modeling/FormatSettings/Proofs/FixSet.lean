import FormatSettings.FixSet
import FormatSettings.Proofs.Report
import Mathlib.Data.List.Basic

namespace FormatSettings

theorem Value.fix_same_comm (f : Fix) (v : Value) : (Value.fix f).same v = v.same (.fix f) := by
  cases v with
  | text s => simp [same, sameAtom, asNumber?, asText?, Bool.beq_comm]
  | fix g => simp [same, sameAtom, asNumber?, asText?, Bool.beq_comm]
  | lineEnding e => simp [same, sameAtom, asNumber?, asText?, Bool.beq_comm]
  | _ => simp [same, sameAtom, asNumber?, asText?]

theorem Fix.key_injective : Function.Injective key := by
  intro f g h
  cases f <;> cases g <;> first | rfl | exact absurd h (by decide)

theorem Value.fix_same_fix_iff {f g : Fix} : (Value.fix f).same (.fix g) = true ↔ f = g := by
  simp [same, sameAtom, asNumber?, asText?, Fix.key_injective.eq_iff]

theorem Value.allAmong_fixes_iff {fs gs : List Fix} :
    allAmong (fs.map .fix) (gs.map .fix) = true ↔ fs ⊆ gs := by
  induction fs with
  | nil => simp [allAmong]
  | cons f fs ih =>
    simp [allAmong, ih, fix_same_fix_iff]

namespace FixSet

def holds (s : FixSet) (f : Fix) : Bool :=
  s.has f || s.others.any (·.same (.fix f))

theorem insertFix_eq (s : FixSet) (f : Fix) :
    s.insertFix f =
      ⟨fun g => s.has g || (g == f && !s.others.any (·.same (.fix g))), s.others⟩ := by
  obtain ⟨has, others⟩ := s
  unfold insertFix
  split
  · next hblocked =>
    congr 1
    funext g
    by_cases hg : g = f
    · subst hg
      simp [hblocked]
    · simp [beq_false_of_ne hg]
  · next hfree =>
    congr 1
    funext g
    by_cases hg : g = f
    · subst hg
      simp [hfree]
    · simp [beq_false_of_ne hg]

theorem foldl_insertFix (s : FixSet) (fixes : List Fix) :
    fixes.foldl insertFix s =
      ⟨fun f => s.has f || (fixes.contains f && !s.others.any (·.same (.fix f))), s.others⟩ := by
  induction fixes generalizing s with
  | nil => simp
  | cons f fixes ih =>
    rw [List.foldl_cons, ih, insertFix_eq]
    congr 1
    funext g
    rw [List.contains_cons, Bool.or_assoc, ← Bool.and_or_distrib_right]

theorem mem_all (f : Fix) : f ∈ Fix.all := by
  cases f <;> decide

theorem contains_fixes (s : FixSet) (f : Fix) : s.fixes.contains f = s.has f := by
  rw [Bool.eq_iff_iff, List.contains_iff_mem, fixes, List.mem_filter]
  exact ⟨fun hf => hf.2, fun hf => ⟨mem_all f, hf⟩⟩

theorem fixes_ofFixes (s : FixSet) : (ofFixes s.fixes).fixes = s.fixes :=
  List.filter_congr fun f _ => s.contains_fixes f

theorem elements_of_known {s : FixSet} (h : s.others = []) : s.elements = s.fixes.map .fix := by
  rw [elements, h, List.append_nil]

theorem same_iff {s t : FixSet} (hs : s.others = []) (ht : t.others = []) :
    s.same t = true ↔ s.fixes = t.fixes := by
  rw [same, elements_of_known hs, elements_of_known ht, Value.same, Bool.and_eq_true, beq_iff_eq,
    List.length_map, List.length_map, Value.allAmong_fixes_iff]
  constructor
  · rintro ⟨hlength, hsubset⟩
    have hsublist : s.fixes.Sublist t.fixes := by
      refine List.monotone_filter_right _ fun f hf => ?_
      rw [← contains_fixes, List.contains_iff_mem] at hf ⊢
      exact hsubset hf
    exact hsublist.eq_of_length hlength
  · intro h
    rw [h]
    exact ⟨rfl, List.Subset.refl _⟩

theorem same_ofFixes {s : FixSet} (h : s.others = []) : (ofFixes s.fixes).same s = true :=
  (same_iff rfl h).mpr s.fixes_ofFixes

theorem ofFixes_congr {fs gs : List Fix} (h : ∀ f, f ∈ fs ↔ f ∈ gs) : ofFixes fs = ofFixes gs := by
  rw [ofFixes, ofFixes]
  congr 1
  funext f
  rw [Bool.eq_iff_iff, List.contains_iff_mem, List.contains_iff_mem, h]

theorem union_eq {t : FixSet} (ht : t.others = []) (s : FixSet) :
    s.union t = ⟨fun f => s.has f || (t.has f && !s.others.any (·.same (.fix f))), s.others⟩ := by
  rw [union, ht, List.foldl_nil, foldl_insertFix]
  congr 1
  funext f
  rw [contains_fixes]

theorem union_ofFixes {s : FixSet} (h : s.others = []) (fixes : List Fix) :
    s.union (ofFixes fixes) = ⟨fun f => s.has f || fixes.contains f, []⟩ := by
  rw [union_eq rfl, h]
  congr 1
  funext f
  exact congrArg (s.has f || ·) (Bool.and_true _)

theorem holds_union {t : FixSet} (ht : t.others = []) (s : FixSet) (f : Fix) :
    (s.union t).holds f = (s.holds f || t.has f) := by
  rw [union_eq ht, holds, holds]
  cases h : s.others.any (·.same (.fix f)) <;> simp [h]

theorem union_union {t u : FixSet} (ht : t.others = []) (hu : u.others = []) (s : FixSet) :
    (s.union t).union u = s.union ⟨fun f => t.has f || u.has f, []⟩ := by
  rw [union_eq hu, union_eq ht, union_eq rfl]
  congr 1
  funext f
  rw [Bool.or_assoc, ← Bool.and_or_distrib_right]

/-- What a set is after it was built: its other values can be members, they are no fixes, and no two
members are equal. -/
structure IsBuilt (s : FixSet) : Prop where
  hashable : ∀ v ∈ s.others, v.isHashable = true
  noFix : ∀ v ∈ s.others, ∀ f, v ≠ .fix f
  apart : ∀ v ∈ s.others, ∀ f, s.has f = true → v.same (.fix f) = false
  distinct : s.others.Pairwise fun v w => v.same w = false

theorem isBuilt_empty : empty.IsBuilt where
  hashable := nofun
  noFix := nofun
  apart := nofun
  distinct := .nil

theorem insert_of_ne_fix {v : Value} (h : ∀ f, v ≠ .fix f) (s : FixSet) :
    s.insert v =
      if s.elements.any (·.same v) then s else { s with others := s.others ++ [v] } := by
  cases v with
  | fix f => exact absurd rfl (h f)
  | _ => rfl

theorem isBuilt_insertFix {s : FixSet} (h : s.IsBuilt) (f : Fix) : (s.insertFix f).IsBuilt := by
  unfold insertFix
  split
  · exact h
  · next hnew =>
    refine { h with apart := ?_ }
    intro v hv g hg
    rcases Bool.or_eq_true_iff.mp hg with hgf | hg
    · rw [beq_iff_eq.mp hgf]
      exact Bool.eq_false_iff.mpr fun hsame => hnew (List.any_eq_true.mpr ⟨v, hv, hsame⟩)
    · exact h.apart v hv g hg

theorem mem_elements_of_has {s : FixSet} {f : Fix} (h : s.has f = true) :
    Value.fix f ∈ s.elements :=
  List.mem_append_left _ (List.mem_map.mpr ⟨f, List.mem_filter.mpr ⟨mem_all f, h⟩, rfl⟩)

theorem isBuilt_insert {s : FixSet} (h : s.IsBuilt) {v : Value} (hv : v.isHashable = true) :
    (s.insert v).IsBuilt := by
  by_cases hfix : ∃ f, v = .fix f
  · obtain ⟨f, rfl⟩ := hfix
    exact isBuilt_insertFix h f
  · rw [insert_of_ne_fix (not_exists.mp hfix)]
    split
    · exact h
    · next hnew =>
      have hfresh : ∀ w ∈ s.elements, w.same v = false := fun w hw =>
        Bool.eq_false_iff.mpr fun hsame => hnew (List.any_eq_true.mpr ⟨w, hw, hsame⟩)
      constructor
      · exact List.forall_mem_append.mpr ⟨h.hashable, List.forall_mem_singleton.mpr hv⟩
      · exact List.forall_mem_append.mpr
          ⟨h.noFix, List.forall_mem_singleton.mpr (not_exists.mp hfix)⟩
      · refine List.forall_mem_append.mpr ⟨h.apart, List.forall_mem_singleton.mpr fun f hf => ?_⟩
        rw [← Value.fix_same_comm]
        exact hfresh _ (mem_elements_of_has hf)
      · refine List.pairwise_append.mpr ⟨h.distinct, List.pairwise_singleton _ v, ?_⟩
        intro w hw u hu
        rw [List.mem_singleton.mp hu]
        exact hfresh w (List.mem_append_right _ hw)

theorem isBuilt_insertAll? {s t : FixSet} {vs : List Value} (hs : s.IsBuilt)
    (h : s.insertAll? vs = .ok t) : t.IsBuilt := by
  induction vs generalizing s with
  | nil =>
    cases h
    exact hs
  | cons v vs ih =>
    rw [insertAll?] at h
    split at h
    · next hv => exact ih (isBuilt_insert hs hv) h
    · cases h

theorem insertAll?_of_hashable {vs : List Value} (h : ∀ v ∈ vs, v.isHashable = true) (s : FixSet) :
    ∃ t, s.insertAll? vs = .ok t := by
  induction vs generalizing s with
  | nil => exact ⟨s, rfl⟩
  | cons v vs ih =>
    obtain ⟨hv, hvs⟩ := List.forall_mem_cons.mp h
    obtain ⟨t, ht⟩ := ih hvs (s.insert v)
    exact ⟨t, by rw [insertAll?, if_pos hv, ht]⟩

theorem insertAll?_append (s : FixSet) (vs ws : List Value) :
    s.insertAll? (vs ++ ws) = s.insertAll? vs >>= fun t => t.insertAll? ws := by
  induction vs generalizing s with
  | nil => rfl
  | cons v vs ih =>
    rw [List.cons_append, insertAll?, insertAll?]
    split
    · exact ih (s.insert v)
    · rfl

theorem insertAll?_fixes (s : FixSet) (fixes : List Fix) :
    s.insertAll? (fixes.map .fix) = .ok (fixes.foldl insertFix s) := by
  induction fixes generalizing s with
  | nil => rfl
  | cons f fixes ih => exact ih (s.insertFix f)

theorem ofValue?_fixes {v : Value} {fixes : List Fix} (h : v.elements? = some (fixes.map .fix)) :
    ofValue? v = .ok (ofFixes fixes) := by
  rw [ofValue?, h]
  change empty.insertAll? _ = _
  rw [insertAll?_fixes, foldl_insertFix]
  congr 2
  funext f
  exact (Bool.false_or _).trans (Bool.and_true _)

theorem insertAll?_others {has : Fix → Bool} {before vs : List Value}
    (h : IsBuilt ⟨has, before ++ vs⟩) :
    insertAll? ⟨has, before⟩ vs = .ok ⟨has, before ++ vs⟩ := by
  induction vs generalizing before with
  | nil => rw [List.append_nil, insertAll?]
  | cons v vs ih =>
    have hmem : v ∈ before ++ v :: vs := List.mem_append_right _ List.mem_cons_self
    have hnew : ¬ (elements ⟨has, before⟩).any (·.same v) = true := by
      intro hany
      obtain ⟨w, hw, hsame⟩ := List.any_eq_true.mp hany
      rcases List.mem_append.mp hw with hw | hw
      · obtain ⟨f, hf, rfl⟩ := List.mem_map.mp hw
        rw [Value.fix_same_comm, h.apart v hmem f (List.mem_filter.mp hf).2] at hsame
        cases hsame
      · rw [(List.pairwise_append.mp h.distinct).2.2 w hw v List.mem_cons_self] at hsame
        cases hsame
    rw [insertAll?, if_pos (h.hashable v hmem), insert_of_ne_fix (h.noFix v hmem), if_neg hnew]
    rw [List.append_cons] at h
    rw [ih h, List.append_assoc, List.singleton_append]

theorem IsBuilt.ofValues?_elements {s : FixSet} (h : s.IsBuilt) : ofValues? s.elements = .ok s := by
  have hfixes : s.fixes.foldl insertFix empty = ⟨s.has, []⟩ := by
    rw [foldl_insertFix]
    congr 1
    funext f
    exact (Bool.false_or _).trans ((Bool.and_true _).trans (contains_fixes s f))
  rw [ofValues?, elements, insertAll?_append, insertAll?_fixes, hfixes]
  exact insertAll?_others h

end FixSet

end FormatSettings
