import FormatSettings.Fix.Lookup
import FormatSettings.Proofs.Report

namespace FormatSettings

namespace Value

@[simp] theorem tokenText_text (s : String) : (text s).tokenText = s := rfl

theorem areWritable_iff {vs : List Value} :
    areWritable vs = true ↔ ∀ v ∈ vs, v.isWritable = true := by
  induction vs with
  | nil => simp [areWritable]
  | cons v vs ih => simp [areWritable, ih]

theorem areWritable_map {α : Type} {wrap : α → Value} (h : ∀ a, (wrap a).isWritable = true)
    (as : List α) : areWritable (as.map wrap) = true :=
  areWritable_iff.mpr (List.forall_mem_map.mpr fun a _ => h a)

end Value

namespace Fix

def IsFirstUnknown (t : String) (texts : List String) : Prop :=
  ∃ front back, texts = front ++ t :: back ∧ (∀ s ∈ front, (parse? s).isSome = true) ∧
    parse? t = none

variable {texts : List String} {s t : String} {fixes : List Fix}

theorem IsFirstUnknown.mem (h : IsFirstUnknown t texts) : t ∈ texts := by
  obtain ⟨front, back, rfl, -⟩ := h
  exact List.mem_append_right _ List.mem_cons_self

theorem IsFirstUnknown.unknown (h : IsFirstUnknown t texts) : parse? t = none := by
  obtain ⟨-, -, -, -, hunknown⟩ := h
  exact hunknown

theorem isFirstUnknown_cons_of_none (h : parse? s = none) :
    IsFirstUnknown t (s :: texts) ↔ t = s := by
  constructor
  · rintro ⟨front, back, htexts, hfront, -⟩
    cases front with
    | nil => exact (List.cons.inj htexts).1.symm
    | cons r front =>
      obtain ⟨rfl, -⟩ := List.cons.inj htexts
      have hsome := hfront s List.mem_cons_self
      rw [h] at hsome
      cases hsome
  · rintro rfl
    exact ⟨[], texts, rfl, nofun, h⟩

theorem isFirstUnknown_cons_of_some {f : Fix} (h : parse? s = some f) :
    IsFirstUnknown t (s :: texts) ↔ IsFirstUnknown t texts := by
  constructor
  · rintro ⟨front, back, htexts, hfront, hnone⟩
    cases front with
    | nil =>
      obtain ⟨rfl, -⟩ := List.cons.inj htexts
      cases h.symm.trans hnone
    | cons r front =>
      obtain ⟨-, rfl⟩ := List.cons.inj htexts
      exact ⟨front, back, rfl, fun r hr => hfront r (List.mem_cons_of_mem _ hr), hnone⟩
  · rintro ⟨front, back, rfl, hfront, hnone⟩
    have hs : (parse? s).isSome = true := by rw [h]; rfl
    exact ⟨s :: front, back, rfl, List.forall_mem_cons.mpr ⟨hs, hfront⟩, hnone⟩

theorem selected_cons_of_writable {v : Value} (h : v.isWritable = true) (source : String)
    (vs : List Value) :
    selected source (v :: vs) = match parse? v.tokenText with
      | some f => selected source vs >>= fun fs => pure (f :: fs)
      | none => Report.warn (unknownText v source) >>= fun _ => selected source vs := by
  cases hfix : parse? v.tokenText with
  | none => simp only [selected, Value.token, if_pos h, Report.ofExcept_ok_bind, hfix]
  | some f => simp only [selected, Value.token, if_pos h, Report.ofExcept_ok_bind, hfix]

theorem selected_eq (source : String) {vs : List Value} (h : Value.areWritable vs = true) :
    selected source vs =
      ⟨(vs.filter fun v => (parse? v.tokenText).isNone).map fun v =>
          ⟨.warning, unknownText v source⟩,
        .ok (vs.filterMap fun v => parse? v.tokenText)⟩ := by
  induction vs with
  | nil => rfl
  | cons v vs ih =>
    rw [Value.areWritable, Bool.and_eq_true] at h
    rw [selected_cons_of_writable h.1, ih h.2, List.filter_cons, List.filterMap_cons]
    cases parse? v.tokenText with
    | none => rfl
    | some f => exact Report.mk_bind_pure _ _ _

theorem outcome_selected (source : String) (vs : List Value) :
    (selected source vs).outcome =
      if Value.areWritable vs then .ok (vs.filterMap fun v => parse? v.tokenText)
      else .error (.value .integerTooLong) := by
  induction vs with
  | nil => rfl
  | cons v vs ih =>
    rw [Value.areWritable, List.filterMap_cons]
    cases hv : v.isWritable with
    | false =>
      rw [selected, Value.token, hv]
      rfl
    | true =>
      rw [selected_cons_of_writable hv, Bool.true_and]
      cases parse? v.tokenText with
      | none => exact ih
      | some f =>
        change (selected source vs >>= fun fs => pure (f :: fs)).outcome = _
        rw [Report.outcome_bind, ih]
        cases Value.areWritable vs <;> rfl

theorem filterMap_tokenText (tokens : List String) :
    (tokens.map Value.text).filterMap (fun v => parse? v.tokenText) = tokens.filterMap parse? := by
  rw [List.filterMap_map]
  simp only [Function.comp_def, Value.tokenText_text]

theorem ofTokens_texts {tokens : Value} (h : tokens.elements? = some (texts.map .text))
    (source : String) :
    ofTokens tokens source =
      ⟨(texts.filter fun t => (parse? t).isNone).map fun t =>
          ⟨.warning, unknownText (.text t) source⟩,
        .ok (FixSet.ofFixes (texts.filterMap parse?))⟩ := by
  have hunknown : (texts.map Value.text).filter (fun v => (parse? v.tokenText).isNone) =
      (texts.filter fun t => (parse? t).isNone).map .text := by
    rw [List.filter_map]
    simp only [Function.comp_def, Value.tokenText_text]
  rw [ofTokens, h]
  change (selected source (texts.map .text) >>= fun fs => pure (FixSet.ofFixes fs)) = _
  rw [selected_eq source (Value.areWritable_map (fun _ => rfl) texts), Report.mk_bind_pure,
    filterMap_tokenText, hunknown, List.map_map]
  rfl

theorem validate_texts {tokens : Value} (h : tokens.elements? = some (texts.map .text)) :
    validate tokens = validateAll (texts.map .text) := by
  rw [validate, h]

theorem validateAll_cons_of_none (h : parse? s = none) :
    validateAll ((s :: texts).map .text) = .error (.usage (.unknownFix (.text s))) := by
  have hvalue : parseValue? (.text s) = .ok none := by rw [← h]; rfl
  rw [List.map_cons, validateAll, hvalue]
  rfl

theorem validateAll_cons_of_some {f : Fix} (h : parse? s = some f) :
    validateAll ((s :: texts).map .text) =
      validateAll (texts.map .text) >>= fun fixes => pure (f :: fixes) := by
  have hvalue : parseValue? (.text s) = .ok (some f) := by rw [← h]; rfl
  rw [List.map_cons, validateAll, hvalue]
  rfl

theorem validateAll_eq_ok_iff :
    validateAll (texts.map .text) = .ok fixes ↔ texts.map parse? = fixes.map some := by
  induction texts generalizing fixes with
  | nil =>
    cases fixes with
    | nil => exact iff_of_true rfl rfl
    | cons f fixes => exact iff_of_false nofun nofun
  | cons s texts ih =>
    cases h : parse? s with
    | none =>
      rw [validateAll_cons_of_none h, List.map_cons, h]
      refine iff_of_false nofun ?_
      cases fixes <;> nofun
    | some f =>
      rw [validateAll_cons_of_some h, Except.bind_eq_ok, List.map_cons, h]
      constructor
      · rintro ⟨rest, hrest, ⟨⟩⟩
        rw [ih.mp hrest, List.map_cons]
      · intro hmap
        obtain ⟨g, rest, rfl, hg, hrest⟩ := List.map_eq_cons_iff.mp hmap.symm
        cases hg
        exact ⟨rest, ih.mpr hrest.symm, rfl⟩

theorem validateAll_eq_error_iff {failure : Failure} :
    validateAll (texts.map .text) = .error failure ↔
      ∃ t, IsFirstUnknown t texts ∧ failure = .usage (.unknownFix (.text t)) := by
  induction texts with
  | nil =>
    refine iff_of_false nofun ?_
    rintro ⟨t, hfirst, -⟩
    cases hfirst.mem
  | cons s texts ih =>
    cases h : parse? s with
    | none =>
      simp only [validateAll_cons_of_none h, isFirstUnknown_cons_of_none h, exists_eq_left,
        Except.error.injEq]
      exact eq_comm
    | some f =>
      simp only [validateAll_cons_of_some h, isFirstUnknown_cons_of_some h, ← ih,
        Except.bind_eq_error]
      refine or_iff_left ?_
      rintro ⟨rest, -, ⟨⟩⟩

theorem map_parse?_eq_iff : texts.map parse? = fixes.map some ↔
    (∀ s ∈ texts, (parse? s).isSome = true) ∧ fixes = texts.filterMap parse? := by
  have hfound : (texts.filterMap parse?).map some = (texts.map parse?).filter (·.isSome) :=
    List.map_filterMap_some_eq_filter_map_isSome
  constructor
  · intro h
    have hall : ∀ found ∈ texts.map parse?, found.isSome = true := by
      rw [h]
      exact List.forall_mem_map.mpr fun _ _ => rfl
    rw [List.filter_eq_self.mpr hall, h] at hfound
    have hinj : ∀ f g : Fix, some f = some g → f = g := fun _ _ => Option.some.inj
    exact ⟨List.forall_mem_map.mp hall, (List.map_inj_right hinj).mp hfound.symm⟩
  · rintro ⟨hall, rfl⟩
    rw [hfound, List.filter_eq_self.mpr (List.forall_mem_map.mpr hall)]

end Fix

end FormatSettings
