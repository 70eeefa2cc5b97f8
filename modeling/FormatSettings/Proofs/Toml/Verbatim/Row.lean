import FormatSettings.Proofs.Toml.Sheet
import FormatSettings.Proofs.Toml.Verbatim.Datum
import FormatSettings.Toml.Verbatim.Document

namespace FormatSettings.Toml

open Verbatim

namespace Row

def line : Row → Line
  | .blank => .entry (.blank ['\n'])
  | .header _ name => .header false [⟨name.text, name.chars, [], false⟩] (some {})
  | .pair key d =>
    .entry (.value ⟨key.text, key.chars ++ [' '], ['=', ' '], false⟩ {} d.form d.chars)

def IsTop : Row → Prop
  | .header above _ => above = []
  | _ => True

end Row

namespace Verbatim

theorem stripBy_isLineBlank_word (w : Word) (blanks : List Char)
    (h : ∀ c ∈ blanks, isLineBlank c = true) :
    Text.stripBy isLineBlank (w.chars ++ blanks) = w.chars := by
  have hword : ∀ c ∈ w.chars, isLineBlank c = false := fun c hc =>
    isLineBlank_of_isBareKeyChar (w.isBareKeyChar_of_mem hc)
  have hfront : (w.chars ++ blanks).dropWhile isLineBlank = w.chars ++ blanks := by
    obtain ⟨c, cs, hchars, hc⟩ := w.chars_eq_cons
    rw [hchars, List.cons_append, List.dropWhile_cons, isLineBlank_of_isBareKeyChar hc]
    rfl
  have hback : (blanks.reverse ++ w.chars.reverse).dropWhile isLineBlank = w.chars.reverse := by
    rw [List.dropWhile_append_of_pos fun c hc => h c (List.mem_reverse.mp hc)]
    exact dropWhile_of_none fun c hc => hword c (List.mem_reverse.mp hc)
  rw [Text.stripBy, hfront, List.reverse_append, hback, List.reverse_reverse]

theorem readKey?_word (w : Word) {before after rest : List Char}
    (hbefore : ∀ c ∈ before, isLineBlank c = true) (hafter : ∀ c ∈ after, isLineBlank c = true)
    (hstop : Stops (fun c => isBareKeyChar c || isLineBlank c) rest) :
    readKey? (before ++ w.chars ++ after ++ rest) =
      some (⟨w.text, before ++ w.chars ++ after, [], false⟩, rest) := by
  have hmore : ∀ c ∈ w.chars ++ after, (isBareKeyChar c || isLineBlank c) = true := by
    intro c hc
    rcases List.mem_append.mp hc with hc | hc
    · rw [w.isBareKeyChar_of_mem hc, Bool.true_or]
    · rw [hafter c hc, Bool.or_true]
  have htake := takeWhile_append_of_stops hmore hstop
  have hdrop := dropWhile_append_of_stops hmore hstop
  have htext := textBefore_append (before ++ w.chars ++ after) rest
  have hstrip := stripBy_isLineBlank_word w after hafter
  have hname : String.ofList w.chars = w.text := String.ofList_toList
  have hspace : w.chars.contains ' ' = false := by
    rw [Bool.eq_false_iff]
    intro hmem
    exact absurd (w.isBareKeyChar_of_mem (List.contains_iff_mem.mp hmem)) (by decide)
  have hempty : w.chars.isEmpty = false := by simpa using w.chars_ne_nil
  obtain ⟨c, cs, hchars, hc⟩ := w.chars_eq_cons
  have hquote := isQuote_of_isBareKeyChar hc
  have hword : w.chars ++ after ++ rest = c :: (cs ++ after ++ rest) := by
    rw [hchars, List.cons_append, List.cons_append]
  have hfront : (before ++ w.chars ++ after ++ rest).dropWhile isLineBlank =
      c :: (cs ++ after ++ rest) := by
    rw [List.append_assoc before, List.append_assoc before, List.dropWhile_append_of_pos hbefore,
      hword, List.dropWhile_cons, isLineBlank_of_isBareKeyChar hc]
    rfl
  rw [readKey?, hfront]
  split
  · next heq => exact absurd (hquote ▸ congrArg isQuote (List.cons.inj heq).1) (by decide)
  · next heq => exact absurd (hquote ▸ congrArg isQuote (List.cons.inj heq).1) (by decide)
  · next heq =>
    obtain ⟨rfl, rfl⟩ := List.cons.inj heq
    rw [show (c == '"' || c == '\x27') = false from hquote, if_neg Bool.false_ne_true]
    dsimp only
    rw [← hword, htake, hdrop, htext, hstrip, hname, hempty, hspace]
    rfl
  · next heq => cases heq

theorem readHeader_word (w : Word) (rest : List Char) :
    readHeader [] (w.chars ++ ']' :: '\n' :: rest) =
      (.header false [⟨w.text, w.chars, [], false⟩] (some {}), rest) := by
  have hkeys : readKeys? ((w.chars ++ ']' :: '\n' :: rest).length + 1)
      (w.chars ++ ']' :: '\n' :: rest) =
        some ([⟨w.text, w.chars, [], false⟩], ']' :: '\n' :: rest) := by
    have hkey := readKey?_word w (List.forall_mem_nil _) (List.forall_mem_nil _)
      (stops_cons.mpr (by decide) : Stops _ (']' :: '\n' :: rest))
    rw [List.nil_append, List.append_nil] at hkey
    rw [readKeys?, hkey]
    rfl
  obtain ⟨c, cs, hchars, hc⟩ := w.chars_eq_cons
  have hbracket : c ≠ '[' :=
    ne_of_isBareKeyChar hc (by decide)
  rw [hchars, List.cons_append] at hkeys ⊢
  have hclose : readHeaderClose? false [] (']' :: '\n' :: rest) = some ({}, rest) := by
    simp [readHeaderClose?, readClose?, isLineBlank]
  unfold readHeader
  split
  next heq =>
    split at heq
    · next hhead => exact absurd (List.cons.inj hhead).1 hbracket
    · cases heq
      simp only [hkeys, hclose]

theorem readSeparator?_datum (d : Datum) (rest : List Char) :
    readSeparator? ('=' :: ' ' :: (d.chars ++ rest)) = some (['=', ' '], d.chars ++ rest) := by
  have hpart : ∀ c ∈ ['=', ' '], (c == '=' || isLineBlank c) = true :=
    List.all_eq_true.mp (by decide)
  have hstop : Stops (fun c => c == '=' || isLineBlank c) (d.chars ++ rest) := by
    obtain ⟨c, cs, hchars, hblank, hequals⟩ := datum_eq_cons d
    rw [hchars, List.cons_append, stops_cons]
    simp [hblank, hequals]
  have htake := takeWhile_append_of_stops hpart hstop
  have hdrop := dropWhile_append_of_stops hpart hstop
  rw [List.cons_append, List.cons_append, List.nil_append] at htake hdrop
  rw [readSeparator?, htake, hdrop]
  rfl

theorem readKeys?_pair (key : Word) (rest : List Char) (fuel : Nat) :
    readKeys? (fuel + 1) (key.chars ++ ' ' :: '=' :: rest) =
      some ([⟨key.text, key.chars ++ [' '], [], false⟩], '=' :: rest) := by
  have hkey := readKey?_word key (List.forall_mem_nil _)
    (List.all_eq_true.mp (by decide) : ∀ c ∈ [' '], isLineBlank c = true)
    (stops_cons.mpr (by decide) : Stops _ ('=' :: rest))
  rw [List.nil_append, List.append_assoc, List.singleton_append] at hkey
  rw [readKeys?, hkey]
  rfl

theorem readPair_datum (key : Word) (d : Datum) (rest : List Char) :
    readPair (key.chars ++ ' ' :: '=' :: ' ' :: (d.chars ++ '\n' :: rest)) =
      .ok (.value ⟨key.text, key.chars ++ [' '], ['=', ' '], false⟩ {} d.form d.chars, rest) := by
  have hkeys := readKeys?_pair key (' ' :: (d.chars ++ '\n' :: rest))
  have hseparator := readSeparator?_datum d ('\n' :: rest)
  have hwritten : readWritten ((d.chars ++ '\n' :: rest).length + 1) (d.chars ++ '\n' :: rest) =
      .ok (⟨d.form, d.chars, []⟩, '\n' :: rest) :=
    readWritten_datum d (by rw [List.length_append]; omega) rest
  have hclose : readClose? [] ('\n' :: rest) = some ({}, rest) := by
    simp [readClose?, isLineBlank]
  obtain ⟨c, cs, hchars, hc⟩ := key.chars_eq_cons
  have hblank : isLineBlank c = false :=
    isLineBlank_of_isBareKeyChar hc
  rw [hchars] at hkeys ⊢
  simp only [List.cons_append] at hkeys ⊢
  rw [readPair, List.takeWhile_cons, List.dropWhile_cons, hblank]
  simp only [Bool.false_eq_true, ↓reduceIte, hkeys, expect, bind, Except.bind, hseparator,
    hwritten, hclose]
  rfl

theorem readLine_row {r : Row} (h : r.IsTop) (rest : List Char) :
    readLine (r.chars ++ rest) = (r.line, rest) := by
  cases r with
  | blank => rfl
  | header above name =>
    cases h
    have hheader := readHeader_word name rest
    have hchars : (Row.header [] name).chars ++ rest =
        '[' :: (name.chars ++ ']' :: '\n' :: rest) := by
      simp [Row.chars, Row.body, dotted]
    rw [hchars, readLine]
    exact hheader
  | pair key d =>
    have hpair := readPair_datum key d rest
    have hchars : (Row.pair key d).chars ++ rest =
        key.chars ++ ' ' :: '=' :: ' ' :: (d.chars ++ '\n' :: rest) := by
      simp [Row.chars, Row.body]
    rw [hchars]
    obtain ⟨c, cs, hkey, hc⟩ := key.chars_eq_cons
    have hfeed : c ≠ '\n' := ne_of_isBareKeyChar hc (by decide)
    have hreturn : c ≠ '\r' := ne_of_isBareKeyChar hc (by decide)
    have hbracket : c ≠ '[' := ne_of_isBareKeyChar hc (by decide)
    have hcomment : c ≠ '#' := ne_of_isBareKeyChar hc (by decide)
    have hlead : (isLineBlank c || c == '\r') = false := by
      simp [isLineBlank_of_isBareKeyChar hc, hreturn]
    have hshape : (Row.pair key d).line =
        .entry (.value ⟨key.text, c :: cs ++ [' '], ['=', ' '], false⟩ {} d.form d.chars) := by
      rw [Row.line, hkey]
    rw [hkey] at hpair ⊢
    rw [hshape]
    simp only [List.cons_append] at hpair ⊢
    rw [readLine, List.takeWhile_cons, List.dropWhile_cons, hlead]
    simp only [Bool.false_eq_true, ↓reduceIte]
    rw [if_neg (by simpa using hcomment), hpair]

theorem readLines_rows {rows : List Row} (h : ∀ r ∈ rows, r.IsTop) {fuel : Nat}
    (hfuel : rows.length ≤ fuel) :
    readLines fuel (rows.flatMap Row.chars) = rows.map Row.line := by
  induction rows generalizing fuel with
  | nil => cases fuel <;> rfl
  | cons r rows ih =>
    obtain ⟨fuel, rfl⟩ : ∃ n, fuel = n + 1 := ⟨fuel - 1, by rw [List.length_cons] at hfuel; omega⟩
    have hrest := ih (fun s hs => h s (List.mem_cons_of_mem _ hs)) (Nat.le_of_succ_le_succ hfuel)
    have hline := readLine_row (h r List.mem_cons_self) (rows.flatMap Row.chars)
    rw [List.flatMap_cons, readLines, hline, List.map_cons, ← hrest]
    simp [Row.chars]

end Verbatim

end FormatSettings.Toml
