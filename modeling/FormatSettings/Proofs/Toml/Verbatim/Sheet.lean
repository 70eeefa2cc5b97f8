import FormatSettings.Proofs.Toml.Verbatim.Gather
import FormatSettings.Proofs.Toml.Verbatim.Row

namespace FormatSettings.Toml

open Verbatim

def Word.heading (w : Word) : Key :=
  ⟨w.text, w.chars, [], false⟩

def keptPair (e : Word × Datum) : Entry :=
  .value ⟨e.1.text, e.1.chars ++ [' '], ['=', ' '], false⟩ {} e.2.form e.2.chars

def Sheet.kept (s : Sheet) : List Entry :=
  s.pairs.map keptPair

def keptSheets : List Sheet → List (Sheet × List Entry)
  | [] => []
  | [s] => [(s, s.kept)]
  | s :: t :: rest => (s, s.kept ++ [.blank ['\n']]) :: keptSheets (t :: rest)

def keptSection (e : Sheet × List Entry) : Verbatim.Section :=
  ⟨false, [e.1.name.heading], some {}, e.2, none⟩

theorem ofLines_cons (line : Line) (lines : List Line) :
    Sections.ofLines (line :: lines) = (Sections.ofLines lines).put line :=
  rfl

theorem ofLines_pairs (pairs : List (Word × Datum)) {lines : List Line} {entries : List Entry}
    {sections : List Verbatim.Section}
    (h : Sections.ofLines lines = ⟨entries, none, sections⟩) :
    Sections.ofLines ((pairs.map fun e => (Row.pair e.1 e.2).line) ++ lines) =
      ⟨pairs.map keptPair ++ entries, none, sections⟩ := by
  induction pairs with
  | nil => exact h
  | cons e pairs ih =>
    rw [List.map_cons, List.cons_append, ofLines_cons, ih]
    rfl

theorem ofLines_rows (s : Sheet) {lines : List Line} {entries : List Entry}
    {sections : List Verbatim.Section}
    (h : Sections.ofLines lines = ⟨entries, none, sections⟩) :
    Sections.ofLines ((s.rows []).map Row.line ++ lines) =
      ⟨[], none, keptSection (s, s.kept ++ entries) :: sections⟩ := by
  rw [Sheet.rows, List.map_cons, List.map_map, List.cons_append, ofLines_cons]
  have hpairs := ofLines_pairs s.pairs h
  simp only [Function.comp_def, hpairs]
  rfl

theorem ofLines_sheetRows (sheets : List Sheet) :
    Sections.ofLines ((sheetRows [] sheets).map Row.line) =
      ⟨[], none, (keptSheets sheets).map keptSection⟩ := by
  induction sheets with
  | nil => rfl
  | cons s rest ih =>
    cases rest with
    | nil =>
      have hnil : Sections.ofLines [] = ⟨[], none, []⟩ := rfl
      have hrows := ofLines_rows s hnil
      rw [List.append_nil, List.append_nil] at hrows
      exact hrows
    | cons t rest =>
      have hblank : Sections.ofLines (Row.blank.line :: (sheetRows [] (t :: rest)).map Row.line) =
          ⟨[.blank ['\n']], none, (keptSheets (t :: rest)).map keptSection⟩ := by
        rw [ofLines_cons, ih]
        rfl
      rw [sheetRows, List.map_append, List.map_cons, ofLines_rows s hblank]
      rfl

def IsBody (s : Sheet) (body : List Entry) : Prop :=
  body = s.kept ∨ body = s.kept ++ [.blank ['\n']]

theorem isBody_of_mem {sheets : List Sheet} {e : Sheet × List Entry} (h : e ∈ keptSheets sheets) :
    IsBody e.1 e.2 := by
  induction sheets with
  | nil => cases h
  | cons s rest ih =>
    cases rest with
    | nil =>
      rw [keptSheets, List.mem_singleton] at h
      exact Or.inl (by rw [h])
    | cons t rest =>
      rw [keptSheets, List.mem_cons] at h
      rcases h with rfl | h
      · exact Or.inr rfl
      · exact ih h

theorem keyNames_kept (s : Sheet) : keyNames s.kept = s.pairs.map fun e => e.1.text := by
  unfold Sheet.kept
  induction s.pairs with
  | nil => rfl
  | cons e pairs ih =>
    rw [List.map_cons, keyNames_cons, ih]
    rfl

theorem keyNames_body {s : Sheet} {body : List Entry} (h : IsBody s body) :
    (keyNames body).Nodup := by
  have hkept : (keyNames s.kept).Nodup := by
    rw [keyNames_kept]
    exact s.nodup
  rcases h with rfl | rfl
  · exact hkept
  · rw [keyNames_append]
    exact (List.append_nil (keyNames s.kept)).symm ▸ hkept

theorem isBlank_kept {s : Sheet} {e : Entry} (h : e ∈ s.kept) : e.isBlank = false := by
  obtain ⟨pair, _, rfl⟩ := List.mem_map.mp h
  rfl

theorem foldlM_body (limit : Nat) {s : Sheet} {body : List Entry} (h : IsBody s body) :
    body.foldlM (addLine (addLoosely (limit + 1))) [] = .ok body := by
  have hkept : s.kept.foldlM (addLine (addLoosely (limit + 1))) [] = .ok s.kept :=
    foldlM_addLine limit (fun _ => isBlank_kept) (keyNames_body (Or.inl rfl))
  rcases h with rfl | rfl
  · exact hkept
  · have hline : addLine (addLoosely (limit + 1)) s.kept (.blank ['\n']) =
        .ok (s.kept ++ [.blank ['\n']]) := by
      rw [addLine_of_last fun _ => isBlank_kept]
      exact addLoosely_new limit (keyNames_body (Or.inr rfl))
    rw [List.foldlM_append, hkept]
    change (List.foldlM _ s.kept [Entry.blank ['\n']] : Except Failure (List Entry)) = _
    rw [List.foldlM_cons, hline]
    rfl

def keptTable (e : Sheet × List Entry) : Entry :=
  .table e.1.name.heading ⟨{}, some e.1.name.chars, false, false⟩ e.2

theorem read_keptSection (limit fuel : Nat) {e : Sheet × List Entry}
    {rest : List Verbatim.Section} (hbody : IsBody e.1 e.2)
    (hrest : ∀ s ∈ rest, s.isBelow [e.1.name.text] = false) :
    (keptSection e).read (limit + 1) (fuel + 2) [] [] rest = .ok (keptTable e, rest) := by
  have hlines := foldlM_body limit hbody
  have hbelow := readBelow_of_not_below (limit + 1) fuel [] [e.1.name.text] e.2 hrest
  have hcheck := checkAll_of_nodup (limit + 1) (keyNames_body hbody)
  have hshape : (keptSection e).lines = e.2 ∧ (keptSection e).fault? = none ∧
      (keptSection e).path = [e.1.name.text] ∧ (keptSection e).margin? = some {} :=
    ⟨rfl, rfl, rfl, rfl⟩
  have hread : (keptSection e).readBody (limit + 1) (fuel + 1) [] rest = .ok (e.2, rest) := by
    rw [Section.readBody]
    simp only [hshape, hlines, hbelow, hcheck, checkFault, bind, Except.bind]
    rfl
  have hhead : (keptSection e).head {} = ⟨{}, some e.1.name.chars, false, false⟩ := by
    have htext : (keptSection e).pathText = e.1.name.chars := List.intercalate_singleton
    rw [Section.head, htext]
    rfl
  unfold Section.read
  simp only [hshape, hread, bind, Except.bind, hhead]
  rfl

theorem isBelow_keptSection {e f : Sheet × List Entry} (h : e.1.name.text ≠ f.1.name.text) :
    (keptSection f).isBelow [e.1.name.text] = false := by
  have hpath : (keptSection f).path = [f.1.name.text] := rfl
  simp [Section.isBelow, hpath, h]

theorem readSections_sheets (limit : Nat) {bodies : List (Sheet × List Entry)}
    (hbodies : ∀ e ∈ bodies, IsBody e.1 e.2) {fuel : Nat} (hfuel : bodies.length < fuel)
    (entries : List Entry) (h : (keyNames (entries ++ bodies.map keptTable)).Nodup) :
    readSections (limit + 1) fuel entries (bodies.map keptSection) =
      .ok (entries ++ bodies.map keptTable) := by
  induction bodies generalizing fuel entries with
  | nil =>
    obtain ⟨fuel, rfl⟩ : ∃ n, fuel = n + 1 := ⟨fuel - 1, by omega⟩
    rw [List.map_nil, List.map_nil, List.append_nil, readSections]
    exact fun hzero => nomatch hzero
  | cons e bodies ih =>
    obtain ⟨fuel, rfl⟩ : ∃ n, fuel = n + 1 := ⟨fuel - 1, by omega⟩
    have hkeys : keyNames ((e :: bodies).map keptTable) =
        e.1.name.text :: keyNames (bodies.map keptTable) := rfl
    -- Names of sheets differ, so no section goes on from the path of another.
    have hbelow : ∀ s ∈ bodies.map keptSection, s.isBelow [e.1.name.text] = false := by
      intro s hs
      obtain ⟨f, hf, rfl⟩ := List.mem_map.mp hs
      apply isBelow_keptSection
      intro heq
      rw [keyNames_append, hkeys] at h
      have hnew := (List.nodup_cons.mp (List.nodup_append.mp h).2.1).1
      have hkey : (keptTable f).key? = some f.1.name.heading := rfl
      rw [heq] at hnew
      exact hnew (mem_keyNames (List.mem_map_of_mem hf) hkey)
    have hread := read_keptSection limit (4 * bodies.length + 6) (hbodies e List.mem_cons_self)
      hbelow
    have hlength : 4 * ((bodies.map keptSection).length + 2) = 4 * bodies.length + 6 + 2 := by
      rw [List.length_map]
      omega
    rw [List.map_cons] at h ⊢
    rw [← List.singleton_append, ← List.append_assoc] at h
    have hadd : addOnTop (limit + 1) entries (keptTable e) = .ok (entries ++ [keptTable e]) := by
      apply addOnTop_new
      rw [keyNames_append] at h
      exact (List.nodup_append.mp h).1
    have hrest := ih (fun f hf => hbodies f (List.mem_cons_of_mem _ hf))
      (show bodies.length < fuel by rw [List.length_cons] at hfuel; omega) _ h
    rw [List.map_cons, readSections, hlength, hread]
    simp only [bind, Except.bind, hadd]
    rw [hrest, List.append_assoc, List.singleton_append]

theorem keyNames_keptSheets (sheets : List Sheet) :
    keyNames ((keptSheets sheets).map keptTable) = sheets.map fun s => s.name.text := by
  induction sheets with
  | nil => rfl
  | cons s rest ih =>
    cases rest with
    | nil => rfl
    | cons t rest =>
      rw [keptSheets, List.map_cons, keyNames_cons, ih]
      rfl

theorem isTop_sheetRows (sheets : List Sheet) : ∀ r ∈ sheetRows [] sheets, r.IsTop := by
  have hrows (s : Sheet) : ∀ r ∈ s.rows [], r.IsTop := by
    intro r hr
    rw [Sheet.rows, List.mem_cons, List.mem_map] at hr
    rcases hr with rfl | ⟨e, _, rfl⟩
    · rfl
    · trivial
  induction sheets with
  | nil =>
    intro r hr
    cases hr
  | cons s rest ih =>
    cases rest with
    | nil => exact hrows s
    | cons t rest =>
      intro r hr
      rw [sheetRows, List.mem_append, List.mem_cons] at hr
      rcases hr with hr | rfl | hr
      · exact hrows s r hr
      · trivial
      · exact ih r hr

theorem length_rows_le (rows : List Row) : rows.length ≤ (rows.flatMap Row.chars).length := by
  induction rows with
  | nil => exact Nat.le_refl _
  | cons r rows ih =>
    rw [List.flatMap_cons, List.length_append, Row.chars, List.length_append, List.length_cons,
      List.length_singleton]
    omega

theorem read_sheetChars {sheets : List Sheet} (h : (sheets.map fun s => s.name.text).Nodup) :
    Verbatim.read (sheetChars sheets) = .ok ((keptSheets sheets).map keptTable) := by
  have hlines : readLines (sheetChars sheets).length (sheetChars sheets) =
      (sheetRows [] sheets).map Row.line :=
    readLines_rows (isTop_sheetRows sheets) (length_rows_le _)
  have hlimit : nestingLimit (sheetChars sheets) = 4 * (sheetChars sheets).length + 3 + 1 := rfl
  have hsections := readSections_sheets (4 * (sheetChars sheets).length + 3)
    (fun _ => @isBody_of_mem sheets _)
    (Nat.lt_succ_self (keptSheets sheets).length) []
    (by rw [List.nil_append, keyNames_keptSheets]; exact h)
  rw [Verbatim.read, hlines, ofLines_sheetRows, hlimit, List.length_map]
  exact hsections

end FormatSettings.Toml
