import FormatSettings.Proofs.Toml.KeyText
import FormatSettings.Proofs.Toml.Verbatim.Sheet
import FormatSettings.Toml.Nest

namespace FormatSettings.Toml

open Verbatim

def movedTable (e : Sheet × List Entry) : Entry :=
  .table (.ofName e.1.name.text) ⟨{}, some e.1.name.chars, false, false⟩ e.2

def placedTable (e : Sheet × List Entry) : Entry :=
  .table (.ofName e.1.name.text) ⟨{}, none, false, false⟩ e.2

theorem text_ofName (w : Word) : (Key.ofName w.text).text = w.chars := by
  simp [Key.ofName, w.isBare, Word.chars]

def movedAll (entries : List Entry) : List Entry :=
  entries.filterMap fun e => e.key?.map fun key => e.moved key.name

theorem entryNamed_of_nodup (limit fuel : Nat) {entries : List Entry} (h : (keyNames entries).Nodup)
    {e : Entry} {key : Key} (he : e ∈ entries) (hkey : e.key? = some key) :
    entryNamed limit (fuel + 1) key.name entries = .ok (e.moved key.name) := by
  obtain ⟨front, back, rfl⟩ := List.append_of_mem he
  rw [entryNamed, isScattered_of_nodup h, if_neg Bool.false_ne_true, lastNamed?_of_mem h hkey]

theorem movedAll_cons (e : Entry) (es : List Entry) :
    movedAll (e :: es) = (e.key?.map fun key => e.moved key.name).toList ++ movedAll es := by
  cases hkey : e.key? with
  | none => simp [movedAll, hkey]
  | some key => simp [movedAll, hkey]

theorem mapM_entryNamed_of_subset (limit fuel : Nat) {entries part : List Entry}
    (h : (keyNames entries).Nodup) (hpart : part ⊆ entries) :
    (keyNames part).mapM (fun name => entryNamed limit (fuel + 1) name entries) =
      .ok (movedAll part) := by
  induction part with
  | nil => rfl
  | cons e part ih =>
    obtain ⟨he, hrest⟩ := List.cons_subset.mp hpart
    rw [keyNames_cons, movedAll_cons]
    cases hkey : e.key? with
    | none => exact ih hrest
    | some key =>
      rw [Option.map_some, Option.map_some, Option.toList_some, Option.toList_some,
        List.singleton_append, List.singleton_append, List.mapM_cons,
        entryNamed_of_nodup limit fuel h he hkey, ih hrest]
      rfl

theorem topEntries_of_nodup (limit : Nat) {entries : List Entry} (h : (keyNames entries).Nodup) :
    topEntries limit entries = .ok (movedAll entries) := by
  rw [topEntries, names_of_nodup h]
  exact mapM_entryNamed_of_subset limit _ h (List.Subset.refl entries)

theorem movedAll_sheets (bodies : List (Sheet × List Entry)) :
    movedAll (bodies.map keptTable) = bodies.map movedTable := by
  induction bodies with
  | nil => rfl
  | cons e bodies ih =>
    rw [List.map_cons, List.map_cons, ← ih]
    rfl

theorem forgetEach_of_kept {all entries : List Entry} (hall : (keyNames all).Nodup)
    (h : ∀ e ∈ entries, e.forgetPaths = e) : forgetEach all entries = entries := by
  induction entries with
  | nil => rw [forgetEach]
  | cons e entries ih =>
    have hscattered : (e.key?.any fun key => isScattered key.name all) = false := by
      cases e.key? with
      | none => rfl
      | some key => exact isScattered_of_nodup hall key.name
    rw [forgetEach, hscattered, if_neg Bool.false_ne_true, h e List.mem_cons_self,
      ih fun d hd => h d (List.mem_cons_of_mem _ hd)]

theorem forgetPaths_body {s : Sheet} {body : List Entry} (h : IsBody s body) :
    ∀ e ∈ body, e.forgetPaths = e := by
  have hkept : ∀ e ∈ s.kept, e.forgetPaths = e := by
    intro e he
    obtain ⟨pair, _, rfl⟩ := List.mem_map.mp he
    rfl
  rcases h with rfl | rfl
  · exact hkept
  · intro e he
    rw [List.mem_append, List.mem_singleton] at he
    rcases he with he | rfl
    · exact hkept e he
    · rfl

theorem forgetPaths_moved {e : Sheet × List Entry} (h : IsBody e.1 e.2) :
    (movedTable e).forgetPaths = placedTable e := by
  rw [movedTable, Entry.forgetPaths, forgetEach_of_kept (keyNames_body h) (forgetPaths_body h)]
  rfl

theorem endBlank_append (entries : List Entry) (text : List Char) :
    endBlank (entries ++ [.blank text]) = true := by
  induction entries with
  | nil => rfl
  | cons e entries ih =>
    cases entries with
    | nil => rfl
    | cons d entries =>
      rw [List.cons_append, List.cons_append, endBlank]
      exact ih

theorem place_moved {done : List Entry} {e : Sheet × List Entry} (h : IsBody e.1 e.2)
    (hdone : ∀ last, done.getLast? = some last → last.endsBlank = true) :
    place done (movedTable e) = done ++ [placedTable e] := by
  have hforget := forgetPaths_moved h
  unfold place
  rw [movedTable] at hforget ⊢
  cases hlast : done.getLast? with
  | none =>
    rw [List.getLast?_eq_none_iff.mp hlast]
    exact congrArg (fun d => [d]) hforget
  | some last =>
    have hpart : (placedTable e).partFrom last = placedTable e := by
      rw [placedTable, Entry.partFrom, hdone last hlast]
      rfl
    simp only [Entry.holdsTables, ↓reduceIte, hforget, hpart]

theorem foldl_place (sheets : List Sheet) (done : List Entry)
    (hdone : ∀ last, done.getLast? = some last → last.endsBlank = true) :
    ((keptSheets sheets).map movedTable).foldl place done =
      done ++ (keptSheets sheets).map placedTable := by
  induction sheets generalizing done with
  | nil => rw [keptSheets, List.map_nil, List.map_nil, List.append_nil]; rfl
  | cons s rest ih =>
    cases rest with
    | nil => exact place_moved (Or.inl rfl) hdone
    | cons t rest =>
      have hplace := place_moved (e := (s, s.kept ++ [.blank ['\n']])) (Or.inr rfl) hdone
      have hlast : ∀ last, (done ++ [placedTable (s, s.kept ++ [.blank ['\n']])]).getLast? = some last →
          last.endsBlank = true := by
        intro last hlast
        rw [List.getLast?_append_of_ne_nil _ (List.cons_ne_nil _ _)] at hlast
        cases hlast
        exact endBlank_append s.kept ['\n']
      rw [keptSheets, List.map_cons, List.foldl_cons, hplace, ih _ hlast, List.map_cons,
        List.append_assoc, List.singleton_append]

theorem dotted_append (above : List Word) (name w : Word) :
    dotted (above ++ [name]) w = dotted above name ++ '.' :: w.chars := by
  induction above with
  | nil => rfl
  | cons v above ih => rw [List.cons_append, dotted, ih, dotted, List.append_assoc, List.cons_append]

theorem line_opened (key : Key) (path : List Char) (entries : List Entry) :
    (⟨{}, none, false, false⟩ : Head).opening key path entries = headerLine path := by
  simp [Head.opening, Head.line, Margin.close, Margin.breaksAfter, headerLine]

theorem headerGap_nil (p : Place) (margin : Margin) : p.headerGap [] margin = [] := by
  cases p with
  | document => rfl
  | table isDotted path => rfl
  | item path => rfl

theorem behindPath_cons (part : String) {path : List String} (h : path ≠ [])
    (entries : List Entry) :
    behindPath (part :: path) entries =
      [.table (.ofName part) Head.passed (behindPath path entries)] := by
  cases path with
  | nil => exact absurd rfl h
  | cons next path => rfl

theorem needsHeader_behindPath {path : List String} (h : path ≠ []) (entries : List Entry) :
    (behindPath path entries).any Entry.needsHeader = false := by
  cases path with
  | nil => exact absurd rfl h
  | cons part path =>
    cases path with
    | nil => rfl
    | cons next path => rfl

theorem writeEntries_behindPath {path : List String} (hne : path ≠ []) (entries : List Entry)
    {p : Place} {front : List Char} (hp : p.tablePath false = front) :
    writeEntries p [] (behindPath path entries) =
      writeEntries (.table false (front ++ pathChars (path.map .ofName)))
        (headerLine (front ++ pathChars (path.map .ofName))) entries := by
  induction path generalizing p front with
  | nil => exact absurd rfl hne
  | cons part path ih =>
    have hdotted : (Key.ofName part).isDotted = false := rfl
    cases path with
    | nil =>
      rw [List.map_singleton, pathChars_singleton, behindPath, writeEntries, writeEntries, writeEntry]
      simp only [headerGap_nil, Head.opened, Option.getD_none, hdotted, Bool.and_false, hp,
        line_opened, List.nil_append]
    | cons next path =>
      have hpath : next :: path ≠ [] := List.cons_ne_nil _ _
      have hnext := @ih hpath (.table false (front ++ (Key.ofName part).text))
        (front ++ (Key.ofName part).text ++ ['.']) rfl
      -- A table that is only passed has no header, so the path is written once, in the last one.
      have hopening : Head.passed.opening (.ofName part) (front ++ (Key.ofName part).text)
          (behindPath (next :: path) entries) = [] := by
        rw [Head.opening, needsHeader_behindPath hpath]
        rfl
      have hfront : front ++ pathChars ((part :: next :: path).map .ofName) =
          front ++ (Key.ofName part).text ++ ['.'] ++ pathChars ((next :: path).map .ofName) := by
        rw [List.map_cons, pathChars_cons _ (by simp)]
        simp
      rw [behindPath_cons _ hpath, writeEntries, writeEntries, writeEntry]
      simp only [headerGap_nil, hdotted, Bool.and_false, hp, List.nil_append]
      rw [hfront, ← hnext]
      change writeEntries (.table false (front ++ (Key.ofName part).text)) (Head.passed.opening
        (.ofName part) (front ++ (Key.ofName part).text) (behindPath (next :: path) entries)) _ = _
      rw [hopening]

theorem pathChars_words (above : List Word) (name : Word) :
    pathChars ((above.map Word.text ++ [name.text]).map .ofName) = dotted above name := by
  induction above with
  | nil => rw [List.map_nil, List.nil_append, List.map_singleton, pathChars_singleton, text_ofName, dotted]
  | cons w above ih =>
    rw [List.map_cons, List.cons_append, List.map_cons, pathChars_cons _ (by simp), ih, text_ofName,
      dotted]

theorem writeEntries_pairs (path done : List Char) (pairs : List (Word × Datum)) :
    writeEntries (.table false path) done (pairs.map keptPair) =
      done ++ pairs.flatMap fun e => (Row.pair e.1 e.2).chars := by
  induction pairs generalizing done with
  | nil => simp [writeEntries]
  | cons e pairs ih =>
    have hpair : writeEntry (.table false path) done (keptPair e) = (Row.pair e.1 e.2).chars := by
      simp [keptPair, writeEntry, Place.valuePath, Margin.close, Row.chars, Row.body]
    rw [List.map_cons, writeEntries, hpair, ih, List.flatMap_cons, List.append_assoc]

theorem writeEntries_append (p : Place) (done : List Char) (entries more : List Entry) :
    writeEntries p done (entries ++ more) = writeEntries p (writeEntries p done entries) more := by
  induction entries generalizing done with
  | nil => rw [List.nil_append, writeEntries]
  | cons e entries ih => rw [List.cons_append, writeEntries, ih, writeEntries]

theorem writeEntry_placed (above : List Word) (name : Word) (done : List Char) (s : Sheet)
    {tail : List Entry} {text : List Char}
    (htail : ∀ path done, writeEntries (.table false path) done tail = done ++ text) :
    writeEntry (.table false (dotted above name)) (done ++ ['\n']) (placedTable (s, s.kept ++ tail)) =
      (s.rows (above ++ [name])).flatMap Row.chars ++ text := by
  have hgap : (Place.table false (dotted above name)).headerGap (done ++ ['\n']) {} = [] := by
    simp [Place.headerGap]
  have hpath : (Place.table false (dotted above name)).tablePath false ++
      (Key.ofName s.name.text).text = dotted (above ++ [name]) s.name := by
    rw [text_ofName, dotted_append, Place.tablePath]
    simp
  have hdotted : (Key.ofName s.name.text).isDotted = false := rfl
  rw [placedTable, writeEntry]
  simp only [hgap, hdotted, Bool.and_false, Option.getD_none, hpath, line_opened, List.nil_append]
  rw [writeEntries_append, Sheet.kept, writeEntries_pairs, htail, flatMap_rows, Sheet.pairsChars]

theorem writeEntries_sheets (above : List Word) (name : Word) (sheets : List Sheet)
    (done : List Char) :
    writeEntries (.table false (dotted above name)) (done ++ ['\n'])
        ((keptSheets sheets).map placedTable) =
      done ++ ['\n'] ++ (sheetRows (above ++ [name]) sheets).flatMap Row.chars := by
  induction sheets generalizing done with
  | nil => simp [keptSheets, writeEntries, sheetRows]
  | cons s rest ih =>
    cases rest with
    | nil =>
      have hplaced := @writeEntry_placed above name done s [] []
        (fun path done => by rw [writeEntries, List.append_nil])
      rw [List.append_nil, List.append_nil] at hplaced
      rw [keptSheets, List.map_cons, List.map_nil, writeEntries, writeEntries, hplaced, sheetRows]
    | cons t rest =>
      have hplaced := @writeEntry_placed above name done s [.blank ['\n']] ['\n']
        (fun path done => by rw [writeEntries, writeEntries, writeEntry])
      have hrest := ih (done ++ ['\n'] ++ (s.rows (above ++ [name])).flatMap Row.chars)
      rw [keptSheets, List.map_cons, writeEntries, hplaced, ← List.append_assoc, hrest, sheetRows,
        List.flatMap_append, List.flatMap_cons]
      simp [Row.chars, Row.body]

theorem nestChars_sheetChars (above : List Word) (name : Word) {sheets : List Sheet}
    (h : (sheets.map fun s => s.name.text).Nodup) :
    nestChars (above.map Word.text ++ [name.text]) (sheetChars sheets) =
      .ok (nestedChars above name sheets) := by
  have hread := read_sheetChars h
  have hparts := topEntries_of_nodup (nestingLimit (sheetChars sheets))
    (show (keyNames ((keptSheets sheets).map keptTable)).Nodup by rwa [keyNames_keptSheets])
  have hplaced := foldl_place sheets [] (fun _ hlast => nomatch hlast)
  have hne : above.map Word.text ++ [name.text] ≠ [] := by simp
  have hpath := writeEntries_behindPath hne ((keptSheets sheets).map placedTable)
    (show Place.document.tablePath false = [] from rfl)
  have hsheets := writeEntries_sheets above name sheets ('[' :: dotted above name ++ [']'])
  have hheader : headerLine (dotted above name) = '[' :: dotted above name ++ [']'] ++ ['\n'] := by
    simp [headerLine]
  rw [nestChars, hread]
  simp only [bind, Except.bind, hparts, movedAll_sheets]
  rw [hplaced, List.nil_append, hpath, List.nil_append, pathChars_words, hheader, hsheets, nestedChars,
    List.flatMap_cons, chars_header, hheader]
  rfl

theorem nest_sheetChars {path : String} {above : List Word} {name : Word}
    (hpath : (pathParts path.toList).map String.ofList = above.map Word.text ++ [name.text])
    {sheets : List Sheet} (h : (sheets.map fun s => s.name.text).Nodup) :
    nest (String.ofList (sheetChars sheets)) path =
      .ok (String.ofList (nestedChars above name sheets)) := by
  have hne : (pathParts path.toList).isEmpty = false := by
    rw [List.isEmpty_eq_false_iff]
    intro hnil
    rw [hnil] at hpath
    simp at hpath
  rw [nest, hne, if_neg Bool.false_ne_true, hpath, String.toList_ofList, nestChars_sheetChars above name h]
  rfl

end FormatSettings.Toml
