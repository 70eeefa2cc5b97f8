import FormatSettings.Proofs.Text.FoldedDigits

namespace FormatSettings.Profile

def words (p : Profile) : List String :=
  [p.label, p.key]

/-- What selects a profile. Flags are no integers here, and blanks around a text do not count. -/
inductive Selects : Value → Profile → Prop
  | code {p : Profile} : Selects (.int p.code) p
  | numeral {v : Value} {s : String} {p : Profile} (text : v.asText? = some s)
      (writes : Text.Writes (Text.strip s.toList) p.code) : Selects v p
  | name {v : Value} {s word : String} {p : Profile} (text : v.asText? = some s)
      (mem : word ∈ p.words) (spells : Text.Spells s word) : Selects v p

variable {v : Value} {s : String} {p q : Profile}

theorem isPlain_of_mem_words : ∀ word ∈ p.words, Text.IsPlain word.toList := by
  cases p <;> decide +kernel

theorem mem_foldedNames_iff :
    Text.foldToken s ∈ p.foldedNames ↔ ∃ word ∈ p.words, Text.Spells s word :=
  Text.mem_map_foldToken_iff isPlain_of_mem_words

theorem selects_int_iff {i : Int} : Selects (.int i) p ↔ i = p.code := by
  constructor
  · intro h
    cases h with
    | code => rfl
    | numeral text => cases text
    | name text => cases text
  · rintro rfl
    exact .code

theorem selects_text_iff (htext : v.asText? = some s) : Selects v p ↔
    Text.Writes (Text.strip s.toList) p.code ∨ ∃ word ∈ p.words, Text.Spells s word := by
  constructor
  · intro h
    cases h with
    | code => cases htext
    | numeral text writes =>
      cases htext.symm.trans text
      exact Or.inl writes
    | name text mem spells =>
      cases htext.symm.trans text
      exact Or.inr ⟨_, mem, spells⟩
  · rintro (hwrites | ⟨word, hmem, hspells⟩)
    · exact .numeral htext hwrites
    · exact .name htext hmem hspells

theorem parseText?_eq_some_iff : parseText? s = .ok (some p) ↔
    Text.Writes (Text.strip s.toList) p.code ∨ ∃ word ∈ p.words, Text.Spells s word := by
  rw [← Text.writes_fold_iff, ← mem_foldedNames_iff]
  by_cases hdigits : Text.allDigits (Text.fold s.toList) = true
  · have hname := foldToken_not_mem_foldedNames p hdigits
    rw [or_iff_left hname, ← Text.readDigits_eq_ok_iff hdigits, parseText?]
    simp only [hdigits, if_true]
    cases Text.readDigits (Text.fold s.toList) with
    | ok n => simp [withCode?_eq_some_iff]
    | error fault => simp
  · have hnumeral : ¬ Text.Writes (Text.fold s.toList) p.code := fun h =>
      hdigits (Text.allDigits_of_writes h)
    rw [or_iff_right hnumeral, parseText?, ← find?_foldedNames_eq_some_iff]
    simp [hdigits, Text.foldToken]

theorem parse?_eq_some_iff : parse? v = .ok (some p) ↔ Selects v p := by
  unfold parse?
  split
  · rw [selects_int_iff, Except.ok.injEq, withIntCode?_eq_some_iff]
  · next hint =>
    cases htext : v.asText? with
    | some s => rw [selects_text_iff htext, ← parseText?_eq_some_iff]
    | none =>
      refine iff_of_false nofun fun h => ?_
      cases h with
      | code => exact hint _ rfl
      | numeral text => cases htext.symm.trans text
      | name text => cases htext.symm.trans text

theorem Selects.unique (hp : Selects v p) (hq : Selects v q) : p = q := by
  have hfound := (parse?_eq_some_iff.mpr hp).symm.trans (parse?_eq_some_iff.mpr hq)
  simpa using hfound

theorem outcome_ofCode_int (i : Int) :
    (ofCode (.int i)).outcome = .ok ((withIntCode? i).getD fallback) := by
  simp only [ofCode]
  cases withIntCode? i <;> rfl

/-- A value selects a profile if it is its code, a numeral of its code, or its display name or its key, up
to the case of letters, the separators and the blanks around it. No value selects two profiles, and the
look-up by code selects the same, or the fallback where nothing is selected. -/
theorem parse_selects :
    (∀ v p, parse? v = .ok (some p) ↔ Selects v p) ∧
      (∀ v p q, Selects v p → Selects v q → p = q) ∧
      ∀ i : Int, ∃ found, parse? (.int i) = .ok found ∧
        (ofCode (.int i)).outcome = .ok (found.getD fallback) := by
  refine ⟨fun v p => parse?_eq_some_iff, fun v p q => Selects.unique, fun i => ?_⟩
  exact ⟨withIntCode? i, rfl, outcome_ofCode_int i⟩

theorem parse_selects_mixed_tokens :
    parse? (.text " \u0660\u0967\n") = .ok (some .expanded) ∧
      parse? (.text "DART-style\u2003") = .ok (some .dartStyle) ∧
      ¬ Selects (.bool true) .expanded := by
  obtain ⟨hiff, -⟩ := parse_selects
  refine ⟨(hiff _ _).mpr ?_, (hiff _ _).mpr ?_, fun h => ?_⟩
  · have hstrip : Text.strip " \u0660\u0967\n".toList = ['\u0660', '\u0967'] := by decide +kernel
    have hdecimal : ∀ c ∈ ['\u0660', '\u0967'], Text.IsDecimal c := by
      rw [List.forall_mem_cons, List.forall_mem_singleton]
      decide
    refine .numeral rfl ?_
    rw [hstrip]
    exact ⟨by decide, by decide, hdecimal, by decide +kernel⟩
  · exact .name rfl (List.mem_cons_self) (by decide +kernel)
  · have hparse := (hiff _ _).mpr h
    cases hparse

end FormatSettings.Profile
