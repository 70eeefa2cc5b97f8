import FormatSettings.Proofs.Toml.Datum
import FormatSettings.Toml.Line
import Mathlib.Data.List.TakeWhile

namespace FormatSettings.Toml

def Stops (p : Char → Bool) (rest : List Char) : Prop :=
  ∀ c, rest.head? = some c → p c = false

theorem stops_cons {p : Char → Bool} {c : Char} {rest : List Char} :
    Stops p (c :: rest) ↔ p c = false := by
  simp [Stops]

theorem takeWhile_append_of_stops {p : Char → Bool} {cs rest : List Char}
    (hcs : ∀ c ∈ cs, p c = true) (hrest : Stops p rest) : (cs ++ rest).takeWhile p = cs := by
  rw [List.takeWhile_append_of_pos hcs]
  cases rest with
  | nil => simp
  | cons c rest => simp [stops_cons.mp hrest]

theorem dropWhile_append_of_stops {p : Char → Bool} {cs rest : List Char}
    (hcs : ∀ c ∈ cs, p c = true) (hrest : Stops p rest) : (cs ++ rest).dropWhile p = rest := by
  rw [List.dropWhile_append_of_pos hcs]
  cases rest with
  | nil => simp
  | cons c rest => simp [stops_cons.mp hrest]

theorem dropWhile_of_none {p : Char → Bool} {cs : List Char} (h : ∀ c ∈ cs, p c = false) :
    cs.dropWhile p = cs := by
  cases cs with
  | nil => rfl
  | cons c rest => rw [List.dropWhile_cons, h c List.mem_cons_self, if_neg Bool.false_ne_true]

theorem ungroup_of_all {p : Char → Bool} {cs : List Char} (hne : cs ≠ [])
    (h : ∀ c ∈ cs, p c = true) (hjoint : p '_' = false) : Text.ungroup p cs = some cs := by
  induction cs with
  | nil => exact absurd rfl hne
  | cons c rest ih =>
    have hc : p c = true := h c List.mem_cons_self
    have hrest : ∀ d ∈ rest, p d = true := fun d hd => h d (List.mem_cons_of_mem _ hd)
    unfold Text.ungroup
    rw [if_pos hc]
    split
    · rfl
    · next more =>
      have hunderscore := hrest '_' List.mem_cons_self
      rw [hjoint] at hunderscore
      cases hunderscore
    · next hcons _ => rw [ih hcons hrest, Option.map_some]

theorem readWhole?_decimal (n : Nat) : readWhole? (Text.decimal n) = some (Text.decimal n) := by
  have hgroup : readGrouped? (Text.decimal n) = some (Text.decimal n) :=
    ungroup_of_all (Text.decimal_ne_nil n) (fun _ => Text.isDigit_of_mem_decimal) (by decide)
  unfold readWhole?
  rw [hgroup]
  split
  · next c rest heq =>
    have hrest := Text.decimal_eq_zero_cons (Option.some.inj heq)
    cases hrest
  · rfl

theorem splitSign_decimal (n : Nat) : splitSign (Text.decimal n) = (false, Text.decimal n) := by
  unfold splitSign
  split
  · next rest heq =>
    have hdigit : '-'.isDigit = true := Text.isDigit_of_mem_decimal (heq ▸ List.mem_cons_self)
    cases hdigit
  · next rest heq =>
    have hdigit : '+'.isDigit = true := Text.isDigit_of_mem_decimal (heq ▸ List.mem_cons_self)
    cases hdigit
  · rfl

theorem readInt?_decimal {n : Nat} (h : Text.withinDigitLimit (.ofNat n) = true) :
    readInt? (Text.decimal n) = some (.ofNat n) := by
  have hlength : ¬ Text.digitLimit < (Text.decimal n).length :=
    Nat.not_lt.mpr ((Text.length_decimal_le_iff n).mpr h)
  unfold readInt?
  split
  · next heq => cases Text.decimal_eq_zero_cons heq
  · next heq => cases Text.decimal_eq_zero_cons heq
  · next heq => cases Text.decimal_eq_zero_cons heq
  · rw [readDecimalInt?, splitSign_decimal]
    simp only [readWhole?_decimal, Option.bind_some, gt_iff_lt, hlength, ↓reduceIte,
      Text.digitsNat_decimal, Bool.false_eq_true]

theorem readWord?_decimal {n : Nat} (h : Text.withinDigitLimit (.ofNat n) = true) :
    readWord? (Text.decimal n) = some (.int (.ofNat n)) := by
  have hword {word : List Char} (hhead : ∃ c ∈ word, c.isDigit = false) :
      (Text.decimal n == word) = false := by
    obtain ⟨c, hc, hdigit⟩ := hhead
    rw [beq_eq_false_iff_ne]
    rintro rfl
    rw [Text.isDigit_of_mem_decimal hc] at hdigit
    cases hdigit
  unfold readWord?
  rw [hword ⟨'t', by decide, by decide⟩, hword ⟨'f', by decide, by decide⟩, readInt?_decimal h]
  rfl

theorem takeWord_of_bare {cs : List Char} (hbare : ∀ c ∈ cs, isBareKeyChar c = true)
    (rest : List Char) : takeWord (cs ++ '\n' :: rest) = (cs, '\n' :: rest) := by
  have hword : ∀ c ∈ cs, (!endsWord c) = true := fun c hc => by
    rw [endsWord_of_isBareKeyChar (hbare c hc)]
    rfl
  have hstop : Stops (!endsWord ·) ('\n' :: rest) := stops_cons.mpr (by decide)
  unfold takeWord
  rw [takeWhile_append_of_stops hword hstop, dropWhile_append_of_stops hword hstop]
  rfl

theorem readValue?_of_bare {cs : List Char} {v : Value} (hne : cs ≠ [])
    (hbare : ∀ c ∈ cs, isBareKeyChar c = true) (hv : readWord? cs = some v) (fuel : Nat)
    (rest : List Char) :
    readValue? (fuel + 1) (cs ++ '\n' :: rest) = some (v, '\n' :: rest) := by
  have hword := takeWord_of_bare hbare rest
  cases cs with
  | nil => exact absurd rfl hne
  | cons c cs =>
    have hc := hbare c List.mem_cons_self
    have hquote : c ≠ '"' := ne_of_isBareKeyChar hc (by decide)
    have hsingle : c ≠ '\x27' := ne_of_isBareKeyChar hc (by decide)
    have hbracket : c ≠ '[' := ne_of_isBareKeyChar hc (by decide)
    have hbrace : c ≠ '\x7b' := ne_of_isBareKeyChar hc (by decide)
    rw [List.cons_append] at hword ⊢
    simp [readValue?, hquote, hsingle, hbracket, hbrace, hword, hv]

theorem readBasic?_of_bare {cs : List Char} (hbare : ∀ c ∈ cs, isBareKeyChar c = true)
    {fuel : Nat} (hfuel : cs.length < fuel) (rest : List Char) :
    readBasic? fuel (cs ++ '"' :: rest) = some (cs, rest) := by
  induction cs generalizing fuel with
  | nil =>
    cases fuel with
    | zero => cases hfuel
    | succ fuel => rfl
  | cons c cs ih =>
    cases fuel with
    | zero => cases hfuel
    | succ fuel =>
      have hc := hbare c List.mem_cons_self
      have hrest := ih (fun d hd => hbare d (List.mem_cons_of_mem _ hd)) (Nat.lt_of_succ_lt_succ hfuel)
      rw [List.cons_append]
      rw [readBasic?, isControl_of_isBareKeyChar hc, hrest]
      · rfl
      · exact ne_of_isBareKeyChar hc (by decide)
      · exact ne_of_isBareKeyChar hc (by decide)

theorem quoted_append (w : Word) (rest : List Char) :
    w.quoted ++ rest = '"' :: (w.chars ++ '"' :: rest) := by
  simp [Word.quoted]

theorem readString?_word (w : Word) (rest : List Char) :
    readString? (w.quoted ++ rest) = some (w.chars, rest) := by
  have hread := readBasic?_of_bare (fun c hc => w.isBareKeyChar_of_mem hc)
    (Nat.lt_succ_of_le (Nat.le_add_right w.chars.length ('"' :: rest).length)) rest
  rw [← List.length_append] at hread
  rw [quoted_append]
  obtain ⟨c, cs, hchars, hc⟩ := w.chars_eq_cons
  have hquote : c ≠ '"' :=
    ne_of_isBareKeyChar hc (by decide)
  rw [hchars] at hread ⊢
  simpa [readString?, hquote] using hread

theorem readValue?_word (w : Word) (fuel : Nat) (rest : List Char) :
    readValue? (fuel + 1) (w.quoted ++ rest) = some (.text w.text, rest) := by
  have hread := readString?_word w rest
  rw [quoted_append] at hread ⊢
  rw [readValue?, hread]
  simp [Word.chars]

def listed (ws : List Word) (rest : List Char) : List Char :=
  (ws.map Word.quoted).flatMap (fun item => ' ' :: item ++ [',']) ++ ']' :: rest

theorem chars_words (ws : List Word) : (Datum.words ws).chars = '[' :: listed ws [] := by
  simp [Datum.chars, writeArray, listed]

theorem listed_append (ws : List Word) (rest more : List Char) :
    listed ws rest ++ more = listed ws (rest ++ more) := by
  simp [listed]

theorem listed_cons (w : Word) (ws : List Word) (rest : List Char) :
    listed (w :: ws) rest = ' ' :: (w.quoted ++ ',' :: listed ws rest) := by
  simp [listed]

theorem length_listed (ws : List Word) : ws.length + 1 ≤ (listed ws []).length := by
  induction ws with
  | nil => exact Nat.le_refl _
  | cons w ws ih =>
    rw [listed_cons, List.length_cons, List.length_cons, List.length_append, List.length_cons]
    omega

theorem readItems?_words (ws : List Word) {fuel : Nat} (hfuel : ws.length + 1 < fuel)
    (rest : List Char) :
    readItems? fuel (listed ws rest) = some (ws.map fun w => .text w.text, rest) := by
  induction ws generalizing fuel with
  | nil =>
    obtain ⟨fuel, rfl⟩ : ∃ n, fuel = n + 1 := ⟨fuel - 1, by omega⟩
    simp [listed, readItems?, skipFiller?, isLineBlank]
  | cons w ws ih =>
    obtain ⟨fuel, rfl⟩ : ∃ n, fuel = n + 2 := ⟨fuel - 2, by omega⟩
    have hfuel' : ws.length + 1 < fuel + 1 := by
      rw [List.length_cons] at hfuel
      omega
    have hword := readValue?_word w fuel (',' :: listed ws rest)
    have hblank : skipFiller? false (' ' :: (w.quoted ++ ',' :: listed ws rest)) =
        some (w.quoted ++ ',' :: listed ws rest) := by
      simp [quoted_append, skipFiller?, isLineBlank]
    have hcomma : skipFiller? false (',' :: listed ws rest) = some (',' :: listed ws rest) := by
      simp [skipFiller?, isLineBlank]
    rw [listed_cons, readItems?, hblank]
    rw [quoted_append] at hword ⊢
    simp [hword, hcomma, ih hfuel']

theorem readValue?_datum (d : Datum) {fuel : Nat} (hfuel : d.chars.length < fuel)
    (rest : List Char) :
    readValue? fuel (d.chars ++ '\n' :: rest) = some (d.value, '\n' :: rest) := by
  obtain ⟨fuel, rfl⟩ : ∃ n, fuel = n + 1 := ⟨fuel - 1, by omega⟩
  cases d with
  | flag b =>
    have hread : flagChars b ≠ [] ∧ readWord? (flagChars b) = some (.bool b) := by
      cases b with
      | true => exact ⟨by decide, rfl⟩
      | false => exact ⟨by decide, rfl⟩
    exact readValue?_of_bare hread.1 isBareKeyChar_of_mem_flagChars hread.2 fuel rest
  | number n h =>
    exact readValue?_of_bare (Text.decimal_ne_nil n) (fun _ => isBareKeyChar_of_mem_decimal)
      (readWord?_decimal h) fuel rest
  | word w => exact readValue?_word w fuel ('\n' :: rest)
  | words ws =>
    have hlength := length_listed ws
    rw [chars_words, List.length_cons] at hfuel
    have hitems := readItems?_words ws (show ws.length + 1 < fuel by omega) ('\n' :: rest)
    rw [chars_words, List.cons_append, listed_append, List.nil_append, readValue?, hitems]
    simp [Datum.value]

end FormatSettings.Toml
