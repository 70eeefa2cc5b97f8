import FormatSettings.Toml.Strings
import FormatSettings.Toml.Words
import FormatSettings.Toml.Written

namespace FormatSettings.Toml

theorem isBareKeyText_iff {cs : List Char} :
    isBareKeyText cs = true ↔ cs ≠ [] ∧ ∀ c ∈ cs, isBareKeyChar c = true := by
  simp [isBareKeyText]

theorem ne_of_isBareKeyChar {c x : Char} (hc : isBareKeyChar c = true)
    (hx : isBareKeyChar x = false) : c ≠ x := by
  rintro rfl
  rw [hc] at hx
  cases hx

theorem isBareKeyChar_of_isDigit {c : Char} (h : c.isDigit = true) : isBareKeyChar c = true := by
  have halphanum : c.isAlphanum = (c.isAlpha || c.isDigit) := rfl
  simp [isBareKeyChar, halphanum, h]

theorem toNat_of_isBareKeyChar {c : Char} (h : isBareKeyChar c = true) :
    45 ≤ c.toNat ∧ c.toNat ≤ 122 := by
  have hclass : isBareKeyChar c =
      ((decide ('A'.val ≤ c.val ∧ c.val ≤ 'Z'.val) ||
        decide ('a'.val ≤ c.val) && decide (c.val ≤ 'z'.val) ||
        decide ('0'.val ≤ c.val) && decide (c.val ≤ '9'.val)) || c == '_' || c == '-') := rfl
  simp only [hclass, Bool.or_eq_true, Bool.and_eq_true, decide_eq_true_eq, beq_iff_eq,
    UInt32.le_iff_toNat_le] at h
  change ((((65 ≤ c.toNat ∧ c.toNat ≤ 90) ∨ (97 ≤ c.toNat ∧ c.toNat ≤ 122)) ∨
    (48 ≤ c.toNat ∧ c.toNat ≤ 57)) ∨ c = '_') ∨ c = '-' at h
  rcases h with ((((h | h) | h) | rfl) | rfl)
  · omega
  · omega
  · omega
  · decide
  · decide

theorem isLineBlank_of_isBareKeyChar {c : Char} (h : isBareKeyChar c = true) :
    isLineBlank c = false := by
  have hspace : c ≠ ' ' := ne_of_isBareKeyChar h (by decide)
  have htab : c ≠ '\t' := ne_of_isBareKeyChar h (by decide)
  simp [isLineBlank, hspace, htab]

theorem isControl_of_isBareKeyChar {c : Char} (h : isBareKeyChar c = true) :
    isControl c = false := by
  obtain ⟨hlow, hhigh⟩ := toNat_of_isBareKeyChar h
  simp only [isControl, Bool.or_eq_false_iff, Bool.and_eq_false_iff, decide_eq_false_iff_not,
    beq_eq_false_iff_ne]
  exact ⟨Or.inl (by omega), by omega⟩

theorem endsWord_of_isBareKeyChar {c : Char} (h : isBareKeyChar c = true) :
    endsWord c = false := by
  simp only [endsWord, Bool.or_eq_false_iff, beq_eq_false_iff_ne]
  refine ⟨⟨⟨⟨⟨⟨⟨?_, ?_⟩, ?_⟩, ?_⟩, ?_⟩, ?_⟩, ?_⟩, ?_⟩
  all_goals exact ne_of_isBareKeyChar h (by decide)

theorem writeChar_of_isBareKeyChar {c : Char} (h : isBareKeyChar c = true) : writeChar c = [c] := by
  obtain ⟨hlow, hhigh⟩ := toNat_of_isBareKeyChar h
  have hprintable : Text.isPrintable c = true := by
    simp only [Text.isPrintable, if_pos (show c.toNat < 128 by omega), Bool.and_eq_true,
      decide_eq_true_eq]
    omega
  have hquote : c ≠ '"' := ne_of_isBareKeyChar h (by decide)
  have hslash : c ≠ '\\' := ne_of_isBareKeyChar h (by decide)
  have hfeed : c ≠ '\n' := ne_of_isBareKeyChar h (by decide)
  have hreturn : c ≠ '\r' := ne_of_isBareKeyChar h (by decide)
  have htab : c ≠ '\t' := ne_of_isBareKeyChar h (by decide)
  simp [writeChar, Text.escapeChar, hquote, hslash, hfeed, hreturn, htab, hprintable]

structure Word where
  text : String
  isBare : isBareKeyText text.toList = true := by decide +kernel

namespace Word

def chars (w : Word) : List Char :=
  w.text.toList

theorem chars_ne_nil (w : Word) : w.chars ≠ [] :=
  (isBareKeyText_iff.mp w.isBare).1

theorem isBareKeyChar_of_mem (w : Word) {c : Char} (h : c ∈ w.chars) : isBareKeyChar c = true :=
  (isBareKeyText_iff.mp w.isBare).2 c h

theorem chars_eq_cons (w : Word) : ∃ c cs, w.chars = c :: cs ∧ isBareKeyChar c = true := by
  obtain ⟨c, cs, hchars⟩ := List.exists_cons_of_ne_nil w.chars_ne_nil
  exact ⟨c, cs, hchars, w.isBareKeyChar_of_mem (hchars ▸ List.mem_cons_self)⟩

def quoted (w : Word) : List Char :=
  '"' :: w.chars ++ ['"']

end Word

theorem splitEscapes_of_bare {cs : List Char} (h : ∀ c ∈ cs, isBareKeyChar c = true) :
    splitEscapes cs = (cs, []) := by
  induction cs with
  | nil => rfl
  | cons c rest ih =>
    have hslash : c ≠ '\\' := ne_of_isBareKeyChar (h c List.mem_cons_self) (by decide)
    have hrest := ih fun c hc => h c (List.mem_cons_of_mem _ hc)
    unfold splitEscapes
    split
    · next heq => cases heq
    · next heq =>
      cases heq
      exact absurd rfl hslash
    · next heq =>
      cases heq
      rw [hrest]

theorem flatMap_writeChar_of_bare {cs : List Char} (h : ∀ c ∈ cs, isBareKeyChar c = true) :
    cs.flatMap writeChar = cs := by
  induction cs with
  | nil => rfl
  | cons c rest ih =>
    rw [List.flatMap_cons, writeChar_of_isBareKeyChar (h c List.mem_cons_self),
      ih fun c hc => h c (List.mem_cons_of_mem _ hc)]
    rfl

theorem writeText_word (w : Word) : writeText w.text = .ok w.quoted := by
  have hbare : ∀ c ∈ w.text.toList, isBareKeyChar c = true := fun c hc => w.isBareKeyChar_of_mem hc
  rw [writeText, flatMap_writeChar_of_bare hbare, writeEscaped, splitEscapes_of_bare hbare]
  simp only [joinEscapes, Except.map]
  rfl

theorem writeKey_word (w : Word) : writeKey w.text = .ok w.chars := by
  have hlast : w.text.toList.getLast? ≠ some '\n' := by
    intro h
    have hmem : '\n' ∈ w.chars := List.mem_of_getLast? h
    have hbare := w.isBareKeyChar_of_mem hmem
    exact absurd hbare (by decide)
  unfold writeKey
  simp [hlast, w.isBare, Word.chars]

end FormatSettings.Toml
