import FormatSettings.Proofs.Text.RaisedDigits

namespace FormatSettings.Log

/-- What a text asks for as a log level, without the blanks around it. -/
inductive AsksFor (s : String) (n : Nat) : Prop
  | number (writes : Text.Writes (Text.strip s.toList) n)
  | name {word : String} (mem : (word, n) ∈ levelNames)
      (spells : Text.upper (Text.strip s.toList) = word.toList)

def NamesNone (env : Option String) : Prop :=
  ∀ s, env = some s →
    (∀ n, ¬ AsksFor s n) ∧ ¬ Text.Unreadable (Text.upper (Text.strip s.toList))

variable {s : String} {n : Nat} {env : Option String}

theorem lookup_levelNames_iff {word : String} :
    levelNames.lookup word = some n ↔ (word, n) ∈ levelNames := by
  have hall : ∀ e ∈ levelNames, levelNames.lookup e.1 = some e.2 := by decide
  exact ⟨mem_of_lookup, hall _⟩

theorem allDigits_levelNames : ∀ e ∈ levelNames, Text.allDigits e.1.toList = false := by
  decide

theorem asksFor_iff : AsksFor s n ↔ Text.Writes (Text.strip s.toList) n ∨
    ∃ word, (word, n) ∈ levelNames ∧ Text.upper (Text.strip s.toList) = word.toList := by
  constructor
  · rintro (hwrites | ⟨hmem, hspells⟩)
    · exact Or.inl hwrites
    · exact Or.inr ⟨_, hmem, hspells⟩
  · rintro (hwrites | ⟨word, hmem, hspells⟩)
    · exact .number hwrites
    · exact .name hmem hspells

theorem parseText?_eq_some_iff : parseText? s = .ok (some n) ↔ AsksFor s n := by
  rw [asksFor_iff, ← Text.writes_upper_iff, parseText?]
  by_cases hdigits : Text.allDigits (Text.upper (Text.strip s.toList)) = true
  · -- No name consists of digits.
    have hname : ¬ ∃ word, (word, n) ∈ levelNames ∧
        Text.upper (Text.strip s.toList) = word.toList := by
      rintro ⟨word, hmem, hspells⟩
      rw [hspells, allDigits_levelNames _ hmem] at hdigits
      cases hdigits
    rw [or_iff_left hname, ← Text.readDigits_eq_ok_iff hdigits]
    simp only [hdigits, if_true]
    cases Text.readDigits (Text.upper (Text.strip s.toList)) with
    | ok m => simp
    | error fault => simp
  · have hnumber : ¬ Text.Writes (Text.upper (Text.strip s.toList)) n := fun h =>
      hdigits (Text.allDigits_of_writes h)
    simp only [or_iff_right hnumber, hdigits, Bool.false_eq_true, ↓reduceIte, Except.ok.injEq,
      lookup_levelNames_iff]
    constructor
    · intro hmem
      exact ⟨_, hmem, String.toList_ofList.symm⟩
    · rintro ⟨word, hmem, hspells⟩
      rwa [hspells, String.ofList_toList]

theorem ofEnvironment?_eq_some_iff :
    ofEnvironment? env = .ok (some n) ↔ ∃ s, env = some s ∧ AsksFor s n := by
  cases env with
  | none => exact iff_of_false nofun nofun
  | some s =>
    simp only [Option.some.injEq, exists_eq_left', ofEnvironment?_some, ← parseText?_eq_some_iff]
    cases parseText? s with
    | error fault => simp [Except.mapError]
    | ok level => simp [Except.mapError]

theorem ofEnvironment?_of_namesNone (h : NamesNone env) : ofEnvironment? env = .ok none := by
  cases hlevel : ofEnvironment? env with
  | error f =>
    obtain ⟨s, hs, hunreadable⟩ := ofEnvironment?_eq_error_iff.mp ⟨f, hlevel⟩
    exact absurd hunreadable (h s hs).2
  | ok level =>
    cases level with
    | none => rfl
    | some n =>
      obtain ⟨s, hs, hasks⟩ := ofEnvironment?_eq_some_iff.mp hlevel
      exact absurd hasks ((h s hs).1 n)

theorem namesNone_of_ofEnvironment? (h : ofEnvironment? env = .ok none) : NamesNone env := by
  intro s hs
  constructor
  · intro n hasks
    cases h.symm.trans (ofEnvironment?_eq_some_iff.mpr ⟨s, hs, hasks⟩)
  · intro hunreadable
    obtain ⟨f, hf⟩ := ofEnvironment?_eq_error_iff.mpr ⟨s, hs, hunreadable⟩
    cases h.symm.trans hf

end FormatSettings.Log
