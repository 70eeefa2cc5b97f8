import FormatSettings.Proofs.Toml.RowReading
import FormatSettings.Toml.Verbatim.Line

namespace FormatSettings.Toml.Verbatim

theorem skipChar?_ne {c d : Char} (h : c ≠ d) (rest : List Char) : skipChar? d (c :: rest) = none := by
  simp [skipChar?, h]

theorem readDay?_digits {cs : List Char} (h : ∀ c ∈ cs, c.isDigit = true) : readDay? cs = none := by
  have hdrop : cs.dropWhile Char.isDigit = [] := List.dropWhile_eq_nil_iff.mpr h
  rw [readDay?, hdrop]
  rfl

theorem readTime?_digits {cs : List Char} (h : ∀ c ∈ cs, c.isDigit = true) :
    readTime? cs = none := by
  have hcolon : ∀ rest n, readDigits? 2 cs = some (n, rest) → skipChar? ':' rest = none := by
    intro rest n hread
    rw [readDigits?] at hread
    split at hread
    · cases hread
      cases hrest : cs.drop 2 with
      | nil => rfl
      | cons c rest =>
        have hc : c.isDigit = true := h c (List.mem_of_mem_drop (hrest ▸ List.mem_cons_self))
        exact skipChar?_ne (fun heq => by rw [heq] at hc; cases hc) rest
    · cases hread
  rw [readTime?]
  cases hread : readDigits? 2 cs with
  | none => rfl
  | some read => 
    obtain ⟨n, rest⟩ := read
    simp [hcolon rest n hread]

theorem dropJoints_of_all {cs : List Char} (p : Char → Bool) (before : Char)
    (h : ∀ c ∈ cs, c ≠ '_') : dropJoints p before cs = cs := by
  induction cs generalizing before with
  | nil => rfl
  | cons c rest ih =>
    have hc := h c List.mem_cons_self
    have hrest := ih c fun d hd => h d (List.mem_cons_of_mem _ hd)
    rw [dropJoints, hrest]
    rintro d rest' rfl
    exact absurd rfl hc

theorem digitValue?_of_isDigit {c : Char} (h : c.isDigit = true) :
    (Text.digitValue? c).isSome = true := by
  have hbound := toNat_of_isBareKeyChar (isBareKeyChar_of_isDigit h)
  rw [Text.digitValue?, if_pos (by omega), if_pos h]
  rfl

theorem isIntegerBlank_of_isDigit {c : Char} (h : c.isDigit = true) :
    Text.isIntegerBlank c = false := by
  have hbound := toNat_of_isBareKeyChar (isBareKeyChar_of_isDigit h)
  simp only [Text.isIntegerBlank, Text.isBlank, Bool.and_eq_false_iff, Bool.or_eq_false_iff,
    decide_eq_false_iff_not, beq_eq_false_iff_ne]
  left
  refine ⟨⟨⟨⟨⟨⟨⟨⟨⟨⟨?_, ?_⟩, ?_⟩, ?_⟩, ?_⟩, ?_⟩, ?_⟩, ?_⟩, ?_⟩, ?_⟩, ?_⟩
  all_goals omega

theorem toLower_of_isDigit {c : Char} (h : c.isDigit = true) : c.toLower = c := by
  have hupper : ¬ (c.val ≥ 'A'.val ∧ c.val ≤ 'Z'.val) := by
    simp only [Char.isDigit, ge_iff_le, Bool.and_eq_true, decide_eq_true_eq,
      UInt32.le_iff_toNat_le] at h ⊢
    change 48 ≤ c.toNat ∧ c.toNat ≤ 57 at h
    change ¬ (65 ≤ c.toNat ∧ c.toNat ≤ 90)
    omega
  exact dif_neg hupper

theorem ne_of_digits {cs : List Char} (h : ∀ c ∈ cs, c.isDigit = true) {d : Char}
    (hd : d.isDigit = false) : ∀ c ∈ cs, c ≠ d := by
  rintro c hc rfl
  rw [h c hc] at hd
  cases hd

theorem isDecimalText_digits {cs : List Char} (hne : cs ≠ []) (h : ∀ c ∈ cs, c.isDigit = true) :
    isDecimalText cs = true := by
  have hother {d : Char} (hd : d.isDigit = false) : ∀ c ∈ cs, (c != d) = true := fun c hc =>
    bne_iff_ne.mpr (ne_of_digits h hd c hc)
  have hdigits : (!cs.isEmpty && cs.all fun c => (Text.digitValue? c).isSome) = true := by
    rw [Bool.and_eq_true, List.all_eq_true]
    exact ⟨by simp [hne], fun c hc => digitValue?_of_isDigit (h c hc)⟩
  have hmantissa : cs.takeWhile (· != 'e') = cs := List.takeWhile_eq_self_iff.mpr (hother (by decide))
  have hexponent : cs.dropWhile (· != 'e') = [] := List.dropWhile_eq_nil_iff.mpr (hother (by decide))
  have hfraction : cs.dropWhile (· != '.') = [] := List.dropWhile_eq_nil_iff.mpr (hother (by decide))
  rw [isDecimalText, hmantissa, hexponent]
  simp only [hfraction, hdigits, Bool.and_self]

theorem isPrefixOf_digits {cs start : List Char} (h : ∀ c ∈ cs, c.isDigit = true) {d : Char}
    (hmem : d ∈ start) (hd : d.isDigit = false) : start.isPrefixOf cs = false := by
  rw [Bool.eq_false_iff]
  intro hprefix
  exact ne_of_digits h hd d ((List.isPrefixOf_iff_prefix.mp hprefix).subset hmem) rfl

theorem map_toLower_digits {cs : List Char} (h : ∀ c ∈ cs, c.isDigit = true) :
    cs.map Char.toLower = cs := by
  rw [List.map_congr_left fun c hc => toLower_of_isDigit (h c hc), List.map_id']

theorem dropBlanks_digits {cs : List Char} (h : ∀ c ∈ cs, c.isDigit = true) :
    (cs.reverse.dropWhile Text.isIntegerBlank).reverse = cs := by
  rw [dropWhile_of_none, List.reverse_reverse]
  intro c hc
  exact isIntegerBlank_of_isDigit (h c (List.mem_reverse.mp hc))

theorem leadingZero_decimal (n : Nat) :
    (decide (1 < (Text.decimal n).length) && ['0'].isPrefixOf (Text.decimal n)) = false := by
  rw [Bool.eq_false_iff]
  intro hzero
  rw [Bool.and_eq_true, decide_eq_true_iff, List.isPrefixOf_iff_prefix] at hzero
  obtain ⟨hlength, rest, hrest⟩ := hzero
  have hnil : rest = [] := Text.decimal_eq_zero_cons hrest.symm
  rw [← hrest, hnil] at hlength
  exact absurd hlength (by decide)

theorem isMagnitude_decimal (n : Nat) : isMagnitude false (Text.decimal n) = true := by
  have hdigit : ∀ c ∈ Text.decimal n, c.isDigit = true := fun c => Text.isDigit_of_mem_decimal
  have hjoints := dropJoints_of_all (digitOfBase 10) ' ' (ne_of_digits hdigit (by decide))
  have hunderscore : (Text.decimal n).contains '_' = false := by
    rw [Bool.eq_false_iff]
    intro hmem
    exact ne_of_digits hdigit (by decide) '_' (List.contains_iff_mem.mp hmem) rfl
  have hlast : ((Text.decimal n).getLast? == some '.') = false := by
    rw [beq_eq_false_iff_ne]
    intro hlast
    exact ne_of_digits hdigit (by decide) '.' (List.mem_of_getLast? hlast) rfl
  have hmantissa : (Text.decimal n).takeWhile (· != 'e') = Text.decimal n :=
    List.takeWhile_eq_self_iff.mpr fun c hc => by simpa using ne_of_digits hdigit (by decide) c hc
  have hdecimal := isDecimalText_digits (Text.decimal_ne_nil n) hdigit
  have hbinary := isPrefixOf_digits hdigit (by decide : 'b' ∈ ['0', 'b']) (by decide)
  have hoctal := isPrefixOf_digits hdigit (by decide : 'o' ∈ ['0', 'o']) (by decide)
  have hhex := isPrefixOf_digits hdigit (by decide : 'x' ∈ ['0', 'x']) (by decide)
  simp only [isMagnitude, hbinary, hoctal, hhex, leadingZero_decimal, hjoints,
    map_toLower_digits hdigit, dropBlanks_digits hdigit, hunderscore, hlast, hmantissa, hdecimal,
    Bool.false_and, Bool.and_false, Bool.or_self, Bool.false_eq_true, ↓reduceIte, Bool.true_or,
    beq_self_eq_true]

theorem isNumber_decimal (n : Nat) : isNumber (Text.decimal n) = true := by
  unfold isNumber
  split
  · next rest heq =>
    have hdigit : '+'.isDigit = true := Text.isDigit_of_mem_decimal (heq ▸ List.mem_cons_self)
    cases hdigit
  · next rest heq =>
    have hdigit : '-'.isDigit = true := Text.isDigit_of_mem_decimal (heq ▸ List.mem_cons_self)
    cases hdigit
  · exact isMagnitude_decimal n

theorem readBare?_decimal (n : Nat) (rest : List Char) :
    readBare? (Text.decimal n ++ '\n' :: rest) = some (Text.decimal n, [], '\n' :: rest) := by
  have hdigit : ∀ c ∈ Text.decimal n, c.isDigit = true := fun c => Text.isDigit_of_mem_decimal
  have hword : ∀ c ∈ Text.decimal n, (!endsWord c) = true := fun c hc => by
    rw [endsWord_of_isBareKeyChar (isBareKeyChar_of_isDigit (hdigit c hc))]
    rfl
  have hstop : Stops (!endsWord ·) ('\n' :: rest) := stops_cons.mpr (by decide)
  have htake := takeWhile_append_of_stops hword hstop
  have hdrop := dropWhile_append_of_stops hword hstop
  have hday : isDay (Text.decimal n) = false := by rw [isDay, readDay?_digits hdigit]; rfl
  have hdayTime : isDayTime (Text.decimal n) = false := by rw [isDayTime, readDay?_digits hdigit]
  have htime : isTime (Text.decimal n) = false := by rw [isTime, readTime?_digits hdigit]; rfl
  have hnumber := isNumber_decimal n
  cases hdecimal : Text.decimal n with
  | nil => exact absurd hdecimal (Text.decimal_ne_nil n)
  | cons c cs =>
    have hc : c.isDigit = true := hdigit c (hdecimal ▸ List.mem_cons_self)
    rw [hdecimal] at htake hdrop hday hdayTime htime hnumber
    rw [readBare?, htake, hdrop]
    simp [hday, hdayTime, htime, hnumber, hc]

theorem textBefore_append (front rest : List Char) : textBefore rest (front ++ rest) = front := by
  simp [textBefore]

theorem readText?_of_bare {cs : List Char} (hbare : ∀ c ∈ cs, isBareKeyChar c = true)
    {fuel : Nat} (hfuel : cs.length < fuel) (rest : List Char) :
    readText? '"' fuel (cs ++ '"' :: rest) = some (cs, rest) := by
  induction cs generalizing fuel with
  | nil =>
    obtain ⟨fuel, rfl⟩ : ∃ n, fuel = n + 1 := ⟨fuel - 1, by omega⟩
    rfl
  | cons c cs ih =>
    obtain ⟨fuel, rfl⟩ : ∃ n, fuel = n + 1 := ⟨fuel - 1, by omega⟩
    have hc := hbare c List.mem_cons_self
    have hquote : c ≠ '"' := ne_of_isBareKeyChar hc (by decide)
    have hslash : c ≠ '\\' := ne_of_isBareKeyChar hc (by decide)
    have hrest := ih (fun d hd => hbare d (List.mem_cons_of_mem _ hd)) (Nat.lt_of_succ_lt_succ hfuel)
    simp [readText?, hquote, hslash, isControl_of_isBareKeyChar hc, hrest]

theorem skipString?_word (w : Word) (rest : List Char) :
    skipString? (w.quoted ++ rest) = some rest := by
  have hbare : ∀ c ∈ w.chars, isBareKeyChar c = true := fun c hc => w.isBareKeyChar_of_mem hc
  have hread := readText?_of_bare hbare
    (Nat.lt_succ_of_le (Nat.le_add_right w.chars.length ('"' :: rest).length)) rest
  rw [← List.length_append] at hread
  rw [quoted_append]
  obtain ⟨c, cs, hchars, hc⟩ := w.chars_eq_cons
  have hquote : '"' ≠ c :=
    (ne_of_isBareKeyChar hc (by decide)).symm
  rw [hchars] at hread ⊢
  cases cs with
  | nil =>
    rw [List.cons_append, List.nil_append, skipString?, if_neg (by simp [hquote])]
    exact congrArg (Option.map (·.2)) hread
  | cons d cs =>
    rw [List.cons_append, List.cons_append, skipString?, if_neg (by simp [hquote])]
    exact congrArg (Option.map (·.2)) hread

theorem readWritten_flag (b : Bool) (fuel : Nat) (rest : List Char) :
    readWritten (fuel + 1) (flagChars b ++ '\n' :: rest) =
      .ok (⟨.flag, flagChars b, []⟩, '\n' :: rest) := by
  have hbefore := textBefore_append (flagChars b) ('\n' :: rest)
  cases b with
  | true =>
    change textBefore _ ('t' :: 'r' :: 'u' :: 'e' :: '\n' :: rest) = _ at hbefore
    change readWritten (fuel + 1) ('t' :: 'r' :: 'u' :: 'e' :: '\n' :: rest) = _
    rw [readWritten]
    simp [expect, takeWord?, hbefore, bind, Except.bind, pure, Except.pure]
  | false =>
    change textBefore _ ('f' :: 'a' :: 'l' :: 's' :: 'e' :: '\n' :: rest) = _ at hbefore
    change readWritten (fuel + 1) ('f' :: 'a' :: 'l' :: 's' :: 'e' :: '\n' :: rest) = _
    rw [readWritten]
    simp [expect, takeWord?, hbefore, bind, Except.bind, pure, Except.pure]

theorem readWritten_decimal (n fuel : Nat) (rest : List Char) :
    readWritten (fuel + 1) (Text.decimal n ++ '\n' :: rest) =
      .ok (⟨.other, Text.decimal n, []⟩, '\n' :: rest) := by
  have hread := readBare?_decimal n rest
  cases hdecimal : Text.decimal n with
  | nil => exact absurd hdecimal (Text.decimal_ne_nil n)
  | cons c cs =>
    have hdigit : c.isDigit = true := Text.isDigit_of_mem_decimal (hdecimal ▸ List.mem_cons_self)
    have hne {d : Char} (hd : d.isDigit = false) : c ≠ d := by
      rintro rfl
      rw [hdigit] at hd
      cases hd
    have hquote : c ≠ '"' := hne (by decide)
    have hsingle : c ≠ '\x27' := hne (by decide)
    have htrue : c ≠ 't' := hne (by decide)
    have hfalse : c ≠ 'f' := hne (by decide)
    have hbracket : c ≠ '[' := hne (by decide)
    have hbrace : c ≠ '\x7b' := hne (by decide)
    rw [hdecimal, List.cons_append] at hread
    rw [List.cons_append, readWritten]
    simp [hquote, hsingle, htrue, hfalse, hbracket, hbrace, hread, expect, bind, Except.bind, pure,
      Except.pure]

theorem readWritten_word (w : Word) (fuel : Nat) (rest : List Char) :
    readWritten (fuel + 1) (w.quoted ++ rest) = .ok (⟨.other, w.quoted, []⟩, rest) := by
  have hskip := skipString?_word w rest
  have hbefore := textBefore_append w.quoted rest
  rw [quoted_append] at hskip hbefore ⊢
  rw [readWritten]
  simp [hskip, hbefore, expect, bind, Except.bind, pure, Except.pure]

theorem skipItems_words (ws : List Word) {fuel : Nat} (hfuel : ws.length + 1 < fuel)
    (rest : List Char) : skipItems fuel (listed ws rest) = .ok rest := by
  induction ws generalizing fuel with
  | nil =>
    obtain ⟨fuel, rfl⟩ : ∃ n, fuel = n + 1 := ⟨fuel - 1, by omega⟩
    rw [skipItems]
    rfl
  | cons w ws ih =>
    obtain ⟨fuel, rfl⟩ : ∃ n, fuel = n + 2 := ⟨fuel - 2, by omega⟩
    have hfuel' : ws.length + 1 < fuel + 1 := by
      rw [List.length_cons] at hfuel
      omega
    have hword := readWritten_word w fuel (',' :: listed ws rest)
    have hblank : skipSpace? false (' ' :: (w.quoted ++ ',' :: listed ws rest)) =
        some (w.quoted ++ ',' :: listed ws rest) := by
      simp [quoted_append, skipSpace?, isLineSpace, isLineBlank]
    have hcomma : skipSpace? false (',' :: listed ws rest) = some (',' :: listed ws rest) := by
      simp [skipSpace?, isLineSpace, isLineBlank]
    rw [listed_cons, skipItems, hblank]
    rw [quoted_append] at hword ⊢
    simp [expect, bind, Except.bind, hword, hcomma, ih hfuel']

end FormatSettings.Toml.Verbatim

namespace FormatSettings.Toml

open Verbatim

def Datum.form : Datum → Form
  | .flag _ => .flag
  | _ => .other

theorem readWritten_datum (d : Datum) {fuel : Nat} (hfuel : d.chars.length < fuel)
    (rest : List Char) :
    readWritten fuel (d.chars ++ '\n' :: rest) = .ok (⟨d.form, d.chars, []⟩, '\n' :: rest) := by
  obtain ⟨fuel, rfl⟩ : ∃ n, fuel = n + 1 := ⟨fuel - 1, by omega⟩
  cases d with
  | flag b => exact readWritten_flag b fuel rest
  | number n h => exact readWritten_decimal n fuel rest
  | word w => exact readWritten_word w fuel ('\n' :: rest)
  | words ws =>
    have hlength := length_listed ws
    rw [chars_words, List.length_cons] at hfuel
    have hskip := skipItems_words ws (show ws.length + 1 < fuel by omega) ('\n' :: rest)
    have hbefore := textBefore_append (Datum.words ws).chars ('\n' :: rest)
    rw [chars_words, List.cons_append, listed_append, List.nil_append] at hbefore ⊢
    rw [readWritten]
    simp [hskip, hbefore, Datum.form, bind, Except.bind, pure, Except.pure]

end FormatSettings.Toml
