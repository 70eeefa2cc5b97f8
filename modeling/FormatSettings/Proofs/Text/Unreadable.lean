import FormatSettings.Log.Level
import FormatSettings.Profile.Lookup
import FormatSettings.Proofs.Report
import Mathlib.Data.List.TakeWhile

namespace FormatSettings

namespace Text

def Unreadable (cs : List Char) : Prop :=
  allDigits cs = true ∧ (digitLimit < cs.length ∨ ∃ c ∈ cs, digitValue? c = none)

theorem ne_nil_of_allDigits {cs : List Char} (h : allDigits cs = true) : cs ≠ [] := by
  rintro rfl
  cases h

theorem readDigits_eq_error_iff {cs : List Char} (h : allDigits cs = true) :
    (∃ fault, readDigits cs = .error fault) ↔ Unreadable cs := by
  let isDecimal := fun c => (digitValue? c).isSome
  have hlength : (cs.takeWhile isDecimal).length + (cs.dropWhile isDecimal).length = cs.length := by
    rw [← List.length_append, List.takeWhile_append_dropWhile]
  have hrest : cs.dropWhile isDecimal = [] ↔ ¬ ∃ c ∈ cs, digitValue? c = none := by
    simp [isDecimal, List.dropWhile_eq_nil_iff, Option.isSome_iff_ne_none]
  unfold readDigits Unreadable
  rw [and_iff_right h, List.isEmpty_eq_false_iff.mpr (ne_nil_of_allDigits h)]
  -- Only the digits before the first one that is no decimal digit are read.
  by_cases hdecimal : cs.dropWhile isDecimal = []
  · rw [hdecimal, List.length_nil, Nat.add_zero] at hlength
    simp only [isDecimal, hlength, hrest.mp hdecimal] at hlength ⊢
    by_cases hlong : digitLimit < cs.length
    · simp [hlong]
    · simp [hlong]
  · have hshort : (cs.takeWhile isDecimal).length < cs.length := by
      have := List.length_pos_iff.mpr hdecimal
      omega
    refine iff_of_true ?_ (Or.inr (not_not.mp fun hnone => hdecimal (hrest.mpr hnone)))
    by_cases hlong : digitLimit < (cs.takeWhile isDecimal).length
    · exact ⟨_, if_pos hlong⟩
    · exact ⟨_, (if_neg hlong).trans (if_pos (by simp only [isDecimal] at hshort; simp [hshort]))⟩

theorem number_or_eq_error_iff {α : Type} {token : List Char} {number : Nat → α} {name : α} :
    (∃ fault, (if allDigits token then
        match readDigits token with
        | .ok n => .ok (number n)
        | .error fault => .error (.numeral fault)
      else .ok name) = (.error fault : Except ValueFault α)) ↔ Unreadable token := by
  cases hdigits : allDigits token with
  | false =>
    refine iff_of_false ?_ ?_
    · rintro ⟨fault, hfault⟩
      cases hfault
    · rintro ⟨h, -⟩
      rw [hdigits] at h
      cases h
  | true =>
    rw [← readDigits_eq_error_iff hdigits]
    cases readDigits token with
    | error fault => simp
    | ok n => simp

end Text

theorem Log.parseText?_eq_error_iff {s : String} :
    (∃ fault, parseText? s = .error fault) ↔
      Text.Unreadable (Text.upper (Text.strip s.toList)) :=
  Text.number_or_eq_error_iff

theorem Log.ofEnvironment?_some (s : String) :
    ofEnvironment? (some s) = (parseText? s).mapError .value := by
  cases hempty : s.isEmpty with
  | true =>
    obtain rfl : s = "" := by simpa using hempty
    rfl
  | false => simp [ofEnvironment?, parse?, Value.ofOption, Value.holds, Value.asText?, hempty]

theorem Log.ofEnvironment?_eq_error_iff {env : Option String} :
    (∃ f, ofEnvironment? env = .error f) ↔
      ∃ s, env = some s ∧ Text.Unreadable (Text.upper (Text.strip s.toList)) := by
  cases env with
  | none => simp [ofEnvironment?, parse?, Value.ofOption, Value.holds]
  | some s =>
    simp only [Option.some.injEq, exists_eq_left', ofEnvironment?_some, ← parseText?_eq_error_iff]
    cases parseText? s with
    | error fault => simp [Except.mapError]
    | ok level => simp [Except.mapError]

namespace Profile

theorem parseText?_eq_error_iff {s : String} :
    (∃ fault, parseText? s = .error fault) ↔ Text.Unreadable (Text.fold s.toList) :=
  Text.number_or_eq_error_iff

end Profile

end FormatSettings
