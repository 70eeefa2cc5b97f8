import FormatSettings.Proofs.Toml.Row

namespace FormatSettings.Toml

theorem readKey?_word (w : Word) {rest : List Char} (h : Stops isBareKeyChar rest) :
    readKey? (w.chars ++ rest) = some (w.text, rest) := by
  have hbare : ∀ c ∈ w.chars, isBareKeyChar c = true := fun c hc => w.isBareKeyChar_of_mem hc
  have htake := takeWhile_append_of_stops hbare h
  have hdrop := dropWhile_append_of_stops hbare h
  have hempty : w.chars.isEmpty = false := by simp [w.chars_ne_nil]
  unfold readKey?
  split
  · next heq =>
    obtain ⟨c, cs, hchars, hc⟩ := w.chars_eq_cons
    rw [hchars] at heq
    cases heq
    exact absurd hc (by decide)
  · next heq =>
    obtain ⟨c, cs, hchars, hc⟩ := w.chars_eq_cons
    rw [hchars] at heq
    cases heq
    exact absurd hc (by decide)
  · simp only [htake, hdrop, hempty, Bool.false_eq_true, ↓reduceIte]
    simp [Word.chars]

theorem dotted_eq_cons (above : List Word) (name : Word) :
    ∃ c cs, dotted above name = c :: cs ∧ isBareKeyChar c = true := by
  cases above with
  | nil => exact name.chars_eq_cons
  | cons w above =>
    obtain ⟨c, cs, hchars, hc⟩ := w.chars_eq_cons
    exact ⟨c, cs ++ '.' :: dotted above name, by rw [dotted, hchars, List.cons_append], hc⟩

theorem length_lt_dotted (above : List Word) (name : Word) :
    above.length < (dotted above name).length := by
  induction above with
  | nil => exact List.length_pos_iff.mpr name.chars_ne_nil
  | cons w above ih =>
    rw [dotted, List.length_append, List.length_cons, List.length_cons]
    omega

theorem dropWhile_isLineBlank_dotted (above : List Word) (name : Word) (rest : List Char) :
    (dotted above name ++ rest).dropWhile isLineBlank = dotted above name ++ rest := by
  obtain ⟨c, cs, hdotted, hc⟩ := dotted_eq_cons above name
  rw [hdotted, List.cons_append, List.dropWhile_cons, isLineBlank_of_isBareKeyChar hc]
  rfl

theorem readPath?_dotted (above : List Word) (name : Word) {fuel : Nat} {rest : List Char}
    (hfuel : above.length < fuel) (hstop : Stops isBareKeyChar rest)
    (hdot : Stops (· == '.') (rest.dropWhile isLineBlank)) :
    readPath? fuel (dotted above name ++ rest) =
      some (above.map Word.text ++ [name.text], rest.dropWhile isLineBlank) := by
  -- One word is read with each step, and the last one up to the end of the path.
  induction above generalizing fuel with
  | nil =>
    obtain ⟨fuel, rfl⟩ : ∃ n, fuel = n + 1 := ⟨fuel - 1, by omega⟩
    rw [dotted, readPath?, readKey?_word name hstop, Option.bind_some]
    simp only
    split
    · next heq =>
      rw [heq] at hdot
      exact absurd (stops_cons.mp hdot) (by decide)
    · rfl
  | cons w above ih =>
    obtain ⟨fuel, rfl⟩ : ∃ n, fuel = n + 1 := ⟨fuel - 1, by omega⟩
    rw [List.length_cons] at hfuel
    have hdot : Stops isBareKeyChar ('.' :: (dotted above name ++ rest)) :=
      stops_cons.mpr (by decide)
    have hkey := readKey?_word w hdot
    have hblank : ('.' :: (dotted above name ++ rest)).dropWhile isLineBlank =
        '.' :: (dotted above name ++ rest) := by
      simp [isLineBlank]
    rw [dotted, List.append_assoc, List.cons_append, readPath?, hkey, Option.bind_some]
    simp only [hblank, dropWhile_isLineBlank_dotted, ih (show above.length < fuel by omega)]
    rfl

theorem isLineEnd_cons {c : Char} (hblank : isLineBlank c = false) (hcomment : c ≠ '#')
    (hfeed : c ≠ '\n') (hreturn : c ≠ '\r') (rest : List Char) :
    isLineEnd false (c :: rest) = false := by
  rw [isLineEnd]
  · simp [hblank, hcomment]
  · rintro rfl
    exact absurd rfl hfeed
  · rintro rfl
    exact absurd rfl hreturn

theorem readHeader?_dotted (above : List Word) (name : Word) :
    readHeader? false (dotted above name ++ [']', '\n']) =
      some (.header false (above.map Word.text ++ [name.text])) := by
  have hlength := length_lt_dotted above name
  have hfuel : above.length < (dotted above name ++ [']', '\n']).length + 1 := by
    rw [List.length_append]
    omega
  rw [readHeader?, dropWhile_isLineBlank_dotted,
    readPath?_dotted above name hfuel (stops_cons.mpr (by decide)) (stops_cons.mpr (by decide))]
  rfl

theorem datum_eq_cons (d : Datum) :
    ∃ c cs, d.chars = c :: cs ∧ isLineBlank c = false ∧ c ≠ '=' := by
  cases d with
  | flag b =>
    cases b with
    | true => exact ⟨_, _, rfl, by decide, by decide⟩
    | false => exact ⟨_, _, rfl, by decide, by decide⟩
  | number n h =>
    cases hdigits : Text.decimal n with
    | nil => exact absurd hdigits (Text.decimal_ne_nil n)
    | cons c cs =>
      have hc : isBareKeyChar c = true :=
        isBareKeyChar_of_mem_decimal (hdigits ▸ List.mem_cons_self)
      exact ⟨c, cs, hdigits, isLineBlank_of_isBareKeyChar hc, ne_of_isBareKeyChar hc (by decide)⟩
  | word w => exact ⟨_, _, rfl, by decide, by decide⟩
  | words ws => exact ⟨_, _, chars_words ws, by decide, by decide⟩

theorem readPair?_datum (key : Word) (d : Datum) :
    readPair? (key.chars ++ ' ' :: '=' :: ' ' :: (d.chars ++ ['\n'])) =
      some (.pair [key.text] d.value) := by
  obtain ⟨c, cs, hchars, hc, _⟩ := datum_eq_cons d
  have hpath : readPath? ((key.chars ++ ' ' :: '=' :: ' ' :: (d.chars ++ ['\n'])).length + 1)
      (dotted [] key ++ ' ' :: '=' :: ' ' :: (d.chars ++ ['\n'])) =
        some ([key.text], '=' :: ' ' :: (d.chars ++ ['\n'])) :=
    readPath?_dotted [] key (Nat.succ_pos _) (stops_cons.mpr (by decide))
      (stops_cons.mpr (by decide))
  have hvalue : readValue? ((' ' :: (d.chars ++ ['\n'])).length + 1) (d.chars ++ ['\n']) =
      some (d.value, ['\n']) :=
    readValue?_datum d (by simp only [List.length_cons, List.length_append]; omega) []
  have hblank : (' ' :: (d.chars ++ ['\n'])).dropWhile isLineBlank = d.chars ++ ['\n'] := by
    rw [hchars, List.cons_append, List.dropWhile_cons, if_pos (by decide), List.dropWhile_cons, hc]
    rfl
  rw [dotted] at hpath
  rw [readPair?, hpath, Option.bind_some]
  simp only [hblank, hvalue]
  rfl

theorem readLine?_row (r : Row) : readLine? r.chars = some r.statement := by
  cases r with
  | blank => rfl
  | header above name =>
    obtain ⟨c, cs, hdotted, hc⟩ := dotted_eq_cons above name
    have hbracket : c ≠ '[' := ne_of_isBareKeyChar hc (by decide)
    have hread := readHeader?_dotted above name
    have hchars : (Row.header above name).chars = '[' :: (dotted above name ++ [']', '\n']) := by
      simp [Row.chars, Row.body]
    have hend := isLineEnd_cons (show isLineBlank '[' = false by decide) (by decide) (by decide)
      (by decide) (dotted above name ++ [']', '\n'])
    have hblank : ('[' :: (dotted above name ++ [']', '\n'])).dropWhile isLineBlank =
        '[' :: (dotted above name ++ [']', '\n']) := by
      simp [isLineBlank]
    rw [hchars, readLine?, hend, hblank]
    rw [hdotted, List.cons_append] at hread ⊢
    simpa [hbracket, Row.statement] using hread
  | pair key d =>
    obtain ⟨c, cs, hkey, hc⟩ := dotted_eq_cons [] key
    have hbracket : c ≠ '[' := ne_of_isBareKeyChar hc (by decide)
    have hread := readPair?_datum key d
    have hchars : (Row.pair key d).chars = key.chars ++ ' ' :: '=' :: ' ' :: (d.chars ++ ['\n']) := by
      simp [Row.chars, Row.body]
    rw [dotted] at hkey
    rw [hchars, readLine?]
    rw [hkey, List.cons_append] at hread ⊢
    have hend := isLineEnd_cons (isLineBlank_of_isBareKeyChar hc)
      (ne_of_isBareKeyChar hc (by decide)) (ne_of_isBareKeyChar hc (by decide))
      (ne_of_isBareKeyChar hc (by decide)) (cs ++ ' ' :: '=' :: ' ' :: (d.chars ++ ['\n']))
    rw [hend, List.dropWhile_cons, isLineBlank_of_isBareKeyChar hc]
    simpa [hbracket, Row.statement] using hread

theorem readLines?_rows (rows : List Row) :
    readLines? (rows.map Row.chars ++ [[]]) = some (rows.map Row.statement ++ [.nothing]) := by
  induction rows with
  | nil => rfl
  | cons r rows ih =>
    rw [List.map_cons, List.cons_append, readLines?, readLine?_row, Option.bind_some, ih]
    rfl

theorem readDocument?_rows (rows : List Row) :
    readDocument? (rows.flatMap Row.chars) =
      some (.ofStatements (rows.map Row.statement ++ [.nothing])) := by
  rw [readDocument?, splitLines_rows, readLines?_rows]
  rfl

end FormatSettings.Toml
