import FormatSettings.Proofs.Toml.Limits
import FormatSettings.Proofs.Toml.Sheet

namespace FormatSettings.Toml

theorem layoutEntry_datum (path key : List Char) (d : Datum) :
    layoutEntry path key d.value = pairLayout key d.value := by
  cases d with
  | flag b => simp [Datum.value, layoutEntry]
  | number n _ => simp [Datum.value, layoutEntry]
  | word w => simp [Datum.value, layoutEntry]
  | words ws =>
    have htables : (ws.map fun w => Value.text w.text).any isTable = false := by
      simp [isTable]
    rw [Datum.value, layoutEntry, htables]
    rfl

theorem pairLayout_datum (key : Word) (d : Datum) :
    pairLayout key.chars d.value = { own := .ok { pairs := (Row.pair key d).chars } } := by
  rw [pairLayout, writeValue_datum]
  simp [Except.map, Row.chars, Row.body]

theorem layoutEntries_sheet (path : List Char) (s : Sheet) :
    layoutEntries path s.table = { own := .ok { pairs := s.pairsChars } } := by
  unfold Sheet.table Sheet.pairsChars
  induction s.pairs with
  | nil => simp [layoutEntries]
  | cons e pairs ih =>
    rw [List.map_cons, layoutEntries, writeKey_word]
    simp only [ih, layoutEntry_datum, pairLayout_datum]
    rfl

def Sheet.block (s : Sheet) : Block :=
  ⟨s.name.chars, .ok s.pairsChars, false⟩

theorem layoutEntry_sheet (s : Sheet) :
    layoutEntry [] s.name.chars (.table s.table) = { blocks := [[s.block]] } := by
  simp [layoutEntry, layoutEntries_sheet, extendPath, Layout.body, Except.map, Sheet.block]

theorem layoutEntries_sheets (sheets : List Sheet) :
    layoutEntries [] (sheetTable sheets) =
      { own := .ok {}, blocks := if sheets.isEmpty then [] else [sheets.map Sheet.block] } := by
  unfold sheetTable
  induction sheets with
  | nil => simp [layoutEntries]
  | cons s sheets ih =>
    rw [List.map_cons, layoutEntries, writeKey_word]
    simp only [ih, layoutEntry_sheet]
    cases sheets with
    | nil => rfl
    | cons t sheets => rfl

theorem rows_eq_append (above : List Word) (s : Sheet) :
    ∃ front r, s.rows above = front ++ [r] ∧ r.body ≠ [] := by
  have hbody : ∀ r ∈ s.rows above, r.body ≠ [] := by
    intro r hr
    rw [Sheet.rows, List.mem_cons, List.mem_map] at hr
    rcases hr with rfl | ⟨e, _, rfl⟩
    · simp [Row.body]
    · simp [Row.body]
  obtain ⟨front, r, hrows⟩ : ∃ front r, s.rows above = front ++ [r] := by
    rcases List.eq_nil_or_concat (s.rows above) with hnil | ⟨front, r, hconcat⟩
    · cases hnil
    · exact ⟨front, r, by rw [hconcat, List.concat_eq_append]⟩
  exact ⟨front, r, hrows, hbody r (by rw [hrows]; simp)⟩

theorem Row.body_eq_append {r : Row} (h : r.body ≠ []) :
    ∃ start c, r.body = start ++ [c] ∧ c ≠ '\n' := by
  rcases List.eq_nil_or_concat r.body with hnil | ⟨start, c, hconcat⟩
  · exact absurd hnil h
  · rw [List.concat_eq_append] at hconcat
    exact ⟨start, c, hconcat, (isShown_body (hconcat ▸ List.mem_concat_self)).ne_feed⟩

theorem endsBlank_row (front : List Char) {r : Row} (h : r.body ≠ []) :
    ((front ++ r.chars).reverse.take 2 == ['\n', '\n']) = false := by
  obtain ⟨start, c, hbody, hc⟩ := Row.body_eq_append h
  simp [Row.chars, hbody, hc]

theorem endsBlank_rows (text : List Char) (above : List Word) (s : Sheet) :
    ((text ++ (s.rows above).flatMap Row.chars).reverse.take 2 == ['\n', '\n']) = false := by
  obtain ⟨front, r, hrows, hbody⟩ := rows_eq_append above s
  rw [hrows, List.flatMap_append, List.flatMap_singleton, ← List.append_assoc]
  exact endsBlank_row _ hbody

theorem addBlock_sheet (text : List Char) (s : Sheet) :
    addBlock text s.block =
      .ok (text ++ (if text.isEmpty || text.reverse.take 2 == ['\n', '\n'] then [] else ['\n']) ++
        (s.rows []).flatMap Row.chars) := by
  rw [flatMap_rows, dotted]
  simp [addBlock, Sheet.block, bind, Except.bind, pure, Except.pure]

theorem foldlM_addBlock (text : List Char) (s : Sheet) (sheets : List Sheet) :
    (sheets.map Sheet.block).foldlM addBlock (text ++ (s.rows []).flatMap Row.chars) =
      .ok (text ++ sheetChars (s :: sheets)) := by
  induction sheets generalizing text s with
  | nil => simp [sheetChars, sheetRows, pure, Except.pure]
  | cons t sheets ih =>
    have hnonempty : (text ++ (s.rows []).flatMap Row.chars).isEmpty = false := by
      simp [Sheet.rows, Row.chars]
    have hnext := ih (text ++ (s.rows []).flatMap Row.chars ++ ['\n']) t
    rw [List.map_cons, List.foldlM_cons, addBlock_sheet, endsBlank_rows, hnonempty]
    simp only [Bool.or_self, Bool.false_eq_true, ↓reduceIte]
    refine hnext.trans ?_
    simp [sheetChars, sheetRows, Row.chars, Row.body]

theorem render_sheets (sheets : List Sheet) :
    render (sheetTable sheets) = .ok (String.ofList (sheetChars sheets)) := by
  rw [render, renderChars, layoutEntries_sheets]
  cases sheets with
  | nil => rfl
  | cons s sheets =>
    have hfirst : addBlock [] s.block = .ok ((s.rows []).flatMap Row.chars) := by
      rw [addBlock_sheet]
      rfl
    have hfold : ((s :: sheets).map Sheet.block).foldlM addBlock [] =
        .ok (sheetChars (s :: sheets)) := by
      rw [List.map_cons, List.foldlM_cons, hfirst]
      exact foldlM_addBlock [] s sheets
    change Except.map String.ofList (List.foldlM addBlock [] [(s :: sheets).map Sheet.block].flatten) = _
    rw [List.flatten_singleton, hfold]
    rfl

end FormatSettings.Toml
