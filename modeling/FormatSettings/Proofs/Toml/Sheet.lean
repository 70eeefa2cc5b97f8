import FormatSettings.Host
import FormatSettings.Proofs.Toml.RowReading

/-!
Sheets: tables of settings, each under a header of its own. A document of sheets is read as the table
that holds them, at the top or below the tables of a path.
-/

namespace FormatSettings.Toml

structure Sheet where
  name : Word
  pairs : List (Word × Datum)
  nodup : (pairs.map fun e => e.1.text).Nodup

namespace Sheet

def table (s : Sheet) : Table :=
  s.pairs.map fun e => (e.1.text, e.2.value)

def rows (above : List Word) (s : Sheet) : List Row :=
  .header above s.name :: s.pairs.map fun e => .pair e.1 e.2

end Sheet

def sheetRows (above : List Word) : List Sheet → List Row
  | [] => []
  | [s] => s.rows above
  | s :: t :: rest => s.rows above ++ .blank :: sheetRows above (t :: rest)

def Sheet.pairsChars (s : Sheet) : List Char :=
  s.pairs.flatMap fun e => (Row.pair e.1 e.2).chars

theorem chars_header (above : List Word) (name : Word) :
    (Row.header above name).chars = headerLine (dotted above name) := by
  simp [Row.chars, Row.body, headerLine]

theorem flatMap_rows (above : List Word) (s : Sheet) :
    (s.rows above).flatMap Row.chars = headerLine (dotted above s.name) ++ s.pairsChars := by
  rw [Sheet.rows, List.flatMap_cons, chars_header, List.flatMap_map]
  rfl

def sheetTable (sheets : List Sheet) : Table :=
  sheets.map fun s => (s.name.text, .table s.table)

def under : List Word → Table → Table
  | [], t => t
  | w :: above, t => [(w.text, .table (under above t))]

def Sheet.section (above : List Word) (s : Sheet) : Section :=
  ⟨false, above.map Word.text ++ [s.name.text], s.pairs.map fun e => ([e.1.text], e.2.value)⟩

theorem ofStatements_cons (s : Statement) (rest : List Statement) :
    Document.ofStatements (s :: rest) = (Document.ofStatements rest).addStatement s :=
  rfl

def pairStatements (pairs : List (List String × Value)) : List Statement :=
  pairs.map fun (path, v) => .pair path v

theorem ofStatements_pairStatements (pairs : List (List String × Value)) (rest : List Statement) :
    Document.ofStatements (pairStatements pairs ++ rest) =
      ⟨pairs ++ (Document.ofStatements rest).pairs, (Document.ofStatements rest).sections⟩ := by
  induction pairs with
  | nil => rfl
  | cons pair pairs ih =>
    rw [pairStatements] at ih
    rw [pairStatements, List.map_cons, List.cons_append, ofStatements_cons, ih]
    rfl

theorem map_statement_rows (above : List Word) (s : Sheet) :
    (s.rows above).map Row.statement =
      .header false (above.map Word.text ++ [s.name.text]) ::
        pairStatements (s.pairs.map fun e => ([e.1.text], e.2.value)) := by
  simp [Sheet.rows, Row.statement, pairStatements]

theorem ofStatements_rows (above : List Word) (s : Sheet) {rest : List Statement}
    {sections : List Section} (h : Document.ofStatements rest = ⟨[], sections⟩) :
    Document.ofStatements ((s.rows above).map Row.statement ++ rest) =
      ⟨[], s.section above :: sections⟩ := by
  rw [map_statement_rows, List.cons_append, ofStatements_cons, ofStatements_pairStatements, h,
    List.append_nil]
  rfl

theorem ofStatements_sheetRows (above : List Word) (sheets : List Sheet) :
    Document.ofStatements ((sheetRows above sheets).map Row.statement ++ [.nothing]) =
      ⟨[], sheets.map (Sheet.section above)⟩ := by
  induction sheets with
  | nil => rfl
  | cons s rest ih =>
    cases rest with
    | nil => exact ofStatements_rows above s rfl
    | cons t rest =>
      rw [sheetRows, List.map_append, List.append_assoc, List.map_cons, List.cons_append]
      exact ofStatements_rows above s ih

def Sheet.entries (s : Sheet) : Entries :=
  s.pairs.map fun e => (e.1.text, .value e.2.value)

theorem alter_new {key : String} {f : Option Node → Option Node} {entries : Entries}
    (h : key ∉ entries.map (·.1)) :
    alter key f entries = (f none).map fun n => entries ++ [(key, n)] := by
  induction entries with
  | nil => rfl
  | cons e entries ih =>
    rw [List.map_cons, List.mem_cons, not_or] at h
    have hkey : (e.1 == key) = false := beq_eq_false_iff_ne.mpr fun heq => h.1 heq.symm
    simp only [alter, hkey, Bool.false_eq_true, ↓reduceIte, ih h.2, Option.map_map]
    rfl

theorem assignAll_new (pairs : List (Word × Datum)) (entries : Entries)
    (h : (entries.map (·.1) ++ pairs.map fun e => e.1.text).Nodup) :
    assignAll (pairs.map fun e => ([e.1.text], e.2.value)) entries =
      some (entries ++ pairs.map fun e => (e.1.text, .value e.2.value)) := by
  induction pairs generalizing entries with
  | nil => simp [assignAll]
  | cons e pairs ih =>
    have hnew : e.1.text ∉ entries.map (·.1) := by
      rw [List.nodup_append] at h
      intro hmem
      exact h.2.2 _ hmem _ List.mem_cons_self rfl
    have hassign : assign e.2.value [e.1.text] entries =
        some (entries ++ [(e.1.text, .value e.2.value)]) := by
      rw [assign, alter_new hnew]
      rfl
    have hnext := ih (entries ++ [(e.1.text, .value e.2.value)]) (by simpa using h)
    rw [List.map_cons, assignAll, hassign, Option.bind_some, hnext]
    simp

theorem Sheet.assignAll_pairs (s : Sheet) :
    assignAll (s.pairs.map fun e => ([e.1.text], e.2.value)) [] = some s.entries :=
  assignAll_new s.pairs [] s.nodup

def within : List String → Entries → Entries
  | [], entries => entries
  | [name], entries => [(name, .table .headed entries)]
  | name :: next :: names, entries => [(name, .table .passed (within (next :: names) entries))]

theorem open?_within (last : Option Node → Option Node) (names : List String) {path : List String}
    (h : path ≠ []) (entries : Entries) :
    open? last (names ++ path) (within names entries) =
      (open? last path entries).map (within names) := by
  cases path with
  | nil => exact absurd rfl h
  | cons part path =>
    induction names with
    | nil =>
      have hid : within [] = id := rfl
      rw [hid, Option.map_id]
      rfl
    | cons name names ih =>
      cases names with
      | nil => simp [open?, within, alter, Function.comp_def]
      | cons next names =>
        rw [List.cons_append] at ih ⊢
        simp [open?, within, alter, Function.comp_def, ih]

theorem open?_path (pairs : List (List String × Value)) {names : List String} (h : names ≠ []) :
    open? (openTable pairs) names [] = (assignAll pairs []).map (within names) := by
  induction names with
  | nil => exact absurd rfl h
  | cons name names ih =>
    cases names with
    | nil => simp [open?, openTable, within, alter, Function.comp_def]
    | cons next names =>
      simp [open?, within, alter, Function.comp_def, ih (List.cons_ne_nil _ _)]

theorem applySections_sheets (above : List Word) (sheets : List Sheet) (done : Entries)
    (h : (done.map (·.1) ++ sheets.map fun s => s.name.text).Nodup) :
    Document.applySections (sheets.map (Sheet.section above)) (within (above.map Word.text) done) =
      some (within (above.map Word.text)
        (done ++ sheets.map fun s => (s.name.text, .table .headed s.entries))) := by
  induction sheets generalizing done with
  | nil => simp [Document.applySections]
  | cons s sheets ih =>
    have hnew : s.name.text ∉ done.map (·.1) := by
      rw [List.nodup_append] at h
      intro hmem
      exact h.2.2 _ hmem _ List.mem_cons_self rfl
    have hopen : (s.section above).apply (within (above.map Word.text) done) =
        some (within (above.map Word.text) (done ++ [(s.name.text, .table .headed s.entries)])) := by
      rw [Section.apply, Sheet.section, open?_within _ _ (List.cons_ne_nil _ _), open?, alter_new hnew]
      simp [openTable, s.assignAll_pairs]
    have hnext := ih (done ++ [(s.name.text, .table .headed s.entries)]) (by simpa using h)
    rw [List.map_cons, Document.applySections, hopen, Option.bind_some, hnext]
    simp

theorem Sheet.toTable_entries (s : Sheet) : toTable s.entries = s.table := by
  unfold Sheet.entries Sheet.table
  induction s.pairs with
  | nil => simp [toTable]
  | cons e pairs ih => simp [toTable, Node.toValue, ih]

theorem toTable_sheets (sheets : List Sheet) :
    toTable (sheets.map fun s => (s.name.text, .table .headed s.entries)) = sheetTable sheets := by
  unfold sheetTable
  induction sheets with
  | nil => simp [toTable]
  | cons s sheets ih => simp [toTable, Node.toValue, s.toTable_entries, ih]

def belowNames (names : List String) (t : Table) : Table :=
  names.foldr (fun name inner => [(name, .table inner)]) t

theorem toTable_within (names : List String) (entries : Entries) :
    toTable (within names entries) = belowNames names (toTable entries) := by
  induction names with
  | nil => rfl
  | cons name names ih =>
    have hbelow : belowNames (name :: names) (toTable entries) =
        [(name, .table (belowNames names (toTable entries)))] := rfl
    rw [hbelow, ← ih]
    cases names with
    | nil => simp [within, toTable, Node.toValue]
    | cons next names => simp [within, toTable, Node.toValue]

theorem under_eq_belowNames (above : List Word) (t : Table) :
    under above t = belowNames (above.map Word.text) t := by
  induction above with
  | nil => rfl
  | cons w above ih =>
    rw [under, ih]
    rfl

def sheetChars (sheets : List Sheet) : List Char :=
  (sheetRows [] sheets).flatMap Row.chars

def nestedChars (above : List Word) (name : Word) (sheets : List Sheet) : List Char :=
  (Row.header above name :: sheetRows (above ++ [name]) sheets).flatMap Row.chars

theorem parse?_sheetChars {sheets : List Sheet}
    (h : (sheets.map fun s => s.name.text).Nodup) :
    parse? (sheetChars sheets) = some (sheetTable sheets) := by
  have happly := applySections_sheets [] sheets [] (by simpa using h)
  rw [parse?, sheetChars, readDocument?_rows, Option.bind_some, ofStatements_sheetRows,
    Document.entries?, assignAll, Option.bind_some]
  simp only [List.map_nil, within, List.nil_append] at happly
  rw [happly, Option.map_some, toTable_sheets]

theorem parse?_nestedChars (above : List Word) (name : Word) {sheets : List Sheet}
    (h : (sheets.map fun s => s.name.text).Nodup) :
    parse? (nestedChars above name sheets) =
      some (under (above ++ [name]) (sheetTable sheets)) := by
  have happly := applySections_sheets (above ++ [name]) sheets [] (by simpa using h)
  have hfirst : Section.apply ⟨false, above.map Word.text ++ [name.text], []⟩ [] =
      some (within ((above ++ [name]).map Word.text) []) := by
    rw [List.map_append]
    exact open?_path [] (by simp)
  rw [parse?, nestedChars, readDocument?_rows, Option.bind_some, List.map_cons, List.cons_append,
    ofStatements_cons, ofStatements_sheetRows]
  simp only [Document.addStatement, Row.statement, Document.entries?, assignAll, Option.bind_some]
  rw [Document.applySections, hfirst, Option.bind_some, happly, List.nil_append, Option.map_some,
    toTable_within, toTable_sheets, under_eq_belowNames]

theorem sameKinds_texts (ws : List Word) :
    sameKinds (ws.map fun w => .text w.text) = true := by
  induction ws with
  | nil => rfl
  | cons w ws ih =>
    cases ws with
    | nil => rfl
    | cons v ws =>
      rw [List.map_cons] at ih
      simp [sameKinds, kind, ih]

theorem areUniform_texts (ws : List Word) :
    areUniform (ws.map fun w => .text w.text) = true := by
  induction ws with
  | nil => rfl
  | cons w ws ih => simp [areUniform, isUniform, ih]

theorem isUniform_datum (d : Datum) : isUniform d.value = true := by
  cases d with
  | flag b => rfl
  | number n _ => rfl
  | word w => rfl
  | words ws =>
    rw [Datum.value, isUniform, sameKinds_texts, areUniform_texts]
    rfl

theorem entriesUniform_sheet (s : Sheet) : entriesUniform s.table = true := by
  unfold Sheet.table
  induction s.pairs with
  | nil => rfl
  | cons e pairs ih => simp [entriesUniform, isUniform_datum, ih]

theorem entriesUniform_sheets (sheets : List Sheet) : entriesUniform (sheetTable sheets) = true := by
  unfold sheetTable
  induction sheets with
  | nil => rfl
  | cons s sheets ih => simp [entriesUniform, isUniform, entriesUniform_sheet, ih]

theorem entriesUniform_under {t : Table} (h : entriesUniform t = true) (above : List Word) :
    entriesUniform (under above t) = true := by
  induction above with
  | nil => exact h
  | cons w above ih => simp [under, entriesUniform, isUniform, ih]

theorem table?_sheetChars {sheets : List Sheet}
    (h : (sheets.map fun s => s.name.text).Nodup) :
    table? (sheetChars sheets) = some (sheetTable sheets) := by
  rw [table?, parse?_sheetChars h]
  simp [entriesUniform_sheets]

theorem table?_nestedChars (above : List Word) (name : Word) {sheets : List Sheet}
    (h : (sheets.map fun s => s.name.text).Nodup) :
    table? (nestedChars above name sheets) =
      some (under (above ++ [name]) (sheetTable sheets)) := by
  rw [table?, parse?_nestedChars above name h]
  simp [entriesUniform_under (entriesUniform_sheets sheets)]

theorem ne_return_of_mem_rows {rows : List Row} {c : Char} (h : c ∈ rows.flatMap Row.chars) :
    c ≠ '\r' := by
  obtain ⟨r, _, hc⟩ := List.mem_flatMap.mp h
  rw [Row.chars, List.mem_append, List.mem_singleton] at hc
  rcases hc with hc | rfl
  · exact (isShown_body hc).ne_return
  · decide

end FormatSettings.Toml
