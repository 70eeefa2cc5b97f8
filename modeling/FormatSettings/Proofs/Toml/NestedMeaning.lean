import Mathlib
import FormatSettings.Proofs.Toml.Verbatim.Moving
import FormatSettings.Proofs.Toml.Verbatim.Reading
import FormatSettings.Proofs.Toml.Verbatim.Writing

namespace FormatSettings.Toml

def sectionNames (path : String) : List String :=
  (pathParts path.toList).map String.ofList

theorem ofStatements_sections (names : List String) (sections : List Section) :
    Document.ofStatements (sections.flatMap (Section.statements names)) =
      ⟨[], sections.map (Section.below names)⟩ := by
  induction sections with
  | nil => rfl
  | cons s sections ih =>
    rw [List.flatMap_cons, Section.statements, List.cons_append, ofStatements_cons,
      ofStatements_pairStatements, ih, List.append_nil]
    rfl

theorem applySections_below (names : List String) {sections : List Section} {entries grown : Entries}
    (h : Document.applySections sections entries = some grown) :
    Document.applySections (sections.map (Section.below names)) (within names entries) =
      some (within names grown) := by
  induction sections generalizing entries with
  | nil =>
    cases h
    rfl
  | cons s sections ih =>
    obtain ⟨next, hnext, h⟩ := Option.bind_eq_some_iff.mp h
    have hpath : s.path ≠ [] := by
      intro hnil
      rw [Section.apply, hnil, open?] at hnext
      cases hnext
    have hopen : (s.below names).apply (within names entries) = some (within names next) := by
      rw [Section.apply] at hnext
      rw [Section.apply, Section.below, open?_within _ _ hpath, hnext, Option.map_some]
    rw [List.map_cons, Document.applySections, hopen, Option.bind_some, ih h]

theorem parse?_below {d : Document} {entries : Entries} (h : d.entries? = some entries)
    {names : List String} (hne : names ≠ []) {text : List Char}
    (htext : statements? text = some (.header false names :: pairStatements d.pairs ++
      d.sections.flatMap (Section.statements names))) :
    parse? text = some (belowNames names (toTable entries)) := by
  obtain ⟨first, hfirst, hsections⟩ := Option.bind_eq_some_iff.mp h
  have hheader : Section.apply ⟨false, names, d.pairs⟩ [] = some (within names first) := by
    rw [Section.apply, if_neg Bool.false_ne_true, open?_path _ hne, hfirst, Option.map_some]
  have happly : Document.entries? (Document.ofStatements (.header false names ::
      pairStatements d.pairs ++ d.sections.flatMap (Section.statements names))) =
      some (within names entries) := by
    rw [List.cons_append, ofStatements_cons, ofStatements_pairStatements, ofStatements_sections,
      List.append_nil, Document.entries?, Document.addStatement, assignAll, Option.bind_some,
      Document.applySections, hheader, Option.bind_some, applySections_below names hsections]
  rw [parse?, readDocument?_eq, htext, Option.map_some, Option.bind_some, happly, Option.map_some,
    toTable_within]

theorem meaning_of_shapes {es fs : Entries}
    (h : ∀ key, (shapesOf es key).meaning? = (shapesOf fs key).meaning?) :
    Table.meaning (toTable es) = Table.meaning (toTable fs) := by
  funext key
  rw [← meaning?_shapesOf, ← meaning?_shapesOf, h]

namespace Verbatim

/-- The document that entries with their pairs first write. -/
def documentOf (entries : List Entry) : Document :=
  ⟨pairsOf entries, sectionsOf entries⟩

theorem ops_documentOf {entries : List Entry} (h : LinesFirst entries) :
    (documentOf entries).ops = opsOf entries := by
  rw [h.opsOf]
  rfl

/-- Entries keep what they say below the header of a path: the headers of all tables are written with
that path, and no line without a break runs into the next one. -/
def lastBelow (names : List String) (entries : List Entry) : Bool :=
  let path := pathChars (names.map Key.ofName)
  allLast (.table false path) (headerLine path) entries

theorem says_behindPath {names : List String} (hne : names ≠ []) {entries : List Entry}
    (hsound : ∀ e ∈ entries, e.IsSound) (hfirst : LinesFirst entries)
    (hlast : lastBelow names entries = true) :
    Says (unifyBreaks (writeEntries .document [] (behindPath names entries)))
      (.header false names :: pairStatements (pairsOf entries) ++
        (sectionsOf entries).flatMap (Section.statements names)) := by
  have hkeys : AreSpelled (names.map Key.ofName) := by
    intro key hkey
    obtain ⟨name, _, rfl⟩ := List.mem_map.mp hkey
    exact spells_ofName name
  have hnames : (names.map Key.ofName).map (·.name) = names := by
    rw [List.map_map]
    exact List.map_id names
  have hpath : names.map Key.ofName ≠ [] := by simpa using hne
  have hopened : KeptHeader Head.opened.margin := ⟨.inl .nil, ⟨rfl, by decide⟩, nofun⟩
  have hheader := says_headerLine hopened hkeys hpath []
  rw [show Head.opened.line (pathChars (names.map Key.ofName)) [] =
    headerLine (pathChars (names.map Key.ofName)) by
      simp [Head.opened, Head.line, Margin.close, Margin.breaksAfter, headerLine], hnames] at hheader
  have hall := says_entries
    (fun e he done hlast => (hsound e he).says_written hkeys hpath (.inl rfl) hlast done) hheader hlast
  rw [hnames, hfirst.statements] at hall
  rw [writeEntries_behindPath hne entries (show Place.document.tablePath false = [] from rfl)]
  exact hall

theorem exists_meaning {cs : List Char} {entries parts : List Entry} {d : Document} {es : Entries}
    (hentries : StandsFor entries d) (hes : d.entries? = some es)
    (hparts : topEntries (nestingLimit cs) entries = .ok parts) :
    IsPlaced (parts.foldl place []) ∧ ∃ fs, (documentOf (parts.foldl place [])).entries? = some fs ∧
      Table.meaning (toTable fs) = Table.meaning (toTable es) := by
  have hrun : runOps (opsOf entries) Shapes.none = some (shapesOf es) := by
    have hops := shapesOf_entries? d
    rw [hes, Option.map_some, Document.ops, runOps_append] at hops
    rw [hentries.first.opsOf, runOps_append, hentries.pairs, hops]
    congr 1
    funext f
    exact (hentries.sections.runOps f).symm
  have hlimit : nestingLimit cs = 4 * cs.length + 3 + 1 := rfl
  rw [hlimit] at hparts
  obtain ⟨hplaced, g, hg, hsame⟩ := runOps_of_topEntries hentries.sound hentries.spread hrun hparts
  refine ⟨hplaced, ?_⟩
  rw [← ops_documentOf hplaced.first, ← shapesOf_entries?] at hg
  obtain ⟨fs, hfs, rfl⟩ := Option.map_eq_some_iff.mp hg
  exact ⟨fs, hfs, meaning_of_shapes hsame⟩

/-- A document that is moved below a path as a whole: the kept reader and the move accept it, all its
headers get the path, and none of its lines run together. No header of an item comes back to the name of
an array of tables around it. -/
def movesWhole (names : List String) (cs : List Char) : Bool :=
  (readDocument? (unifyBreaks cs)).any (fun d => d.sections.all fun s => !s.comesBack d.sections) &&
    (do
      let entries ← read cs
      let parts ← topEntries (nestingLimit cs) entries
      return lastBelow names (parts.foldl place [])).toOption.any id

theorem exists_parts {names : List String} {cs : List Char} (h : movesWhole names cs = true) :
    (∀ d, readDocument? (unifyBreaks cs) = some d →
      ∀ s ∈ d.sections, s.comesBack d.sections = false) ∧
      ∃ entries parts, read cs = .ok entries ∧ topEntries (nestingLimit cs) entries = .ok parts ∧
        lastBelow names (parts.foldl place []) = true := by
  rw [movesWhole, Bool.and_eq_true] at h
  obtain ⟨hstays, hlast⟩ := h
  constructor
  · intro d hd
    rw [hd] at hstays
    simpa using hstays
  · cases hread : read cs with
    | error f =>
      rw [hread] at hlast
      cases hlast
    | ok entries =>
      cases hparts : topEntries (nestingLimit cs) entries with
      | error f =>
        rw [hread] at hlast
        simp [bind, Except.bind, hparts, Except.toOption] at hlast
      | ok parts =>
        rw [hread] at hlast
        refine ⟨entries, parts, rfl, hparts, ?_⟩
        simpa [bind, Except.bind, hparts, Except.toOption, pure, Except.pure] using hlast

end Verbatim

theorem readUnified?_eq_some {cs : List Char} {t : Table} (h : readUnified? cs = some t) :
    IsUnified cs ∧ ∃ ss es, readLines? (splitLines (unifyBreaks cs)) = some ss ∧
      (Document.ofStatements ss).entries? = some es ∧ t = toTable es := by
  rw [readUnified?] at h
  split at h
  · cases h
  · next hreturn =>
    obtain ⟨d, hd, ht⟩ := Option.bind_eq_some_iff.mp h
    obtain ⟨ss, hss, rfl⟩ := Option.map_eq_some_iff.mp hd
    obtain ⟨es, hes, rfl⟩ := Option.map_eq_some_iff.mp ht
    exact ⟨fun hmem => hreturn (List.contains_iff_mem.mpr hmem), ss, es, hss, hes, rfl⟩

theorem readUnified?_of_said {cs : List Char} {ss : List Statement} (h : Says (unifyBreaks cs) ss) :
    readUnified? cs = parse? (unifyBreaks cs) := by
  have hcontains : (unifyBreaks cs).contains '\r' = false := by
    rw [Bool.eq_false_iff]
    exact fun hmem => h.noReturn (List.contains_iff_mem.mp hmem)
  rw [readUnified?, hcontains]
  rfl

theorem exists_nest {doc path : String} (hpath : pathParts path.toList ≠ []) {t : Table}
    (ht : readUnified? doc.toList = some t)
    (hwhole : Verbatim.movesWhole (sectionNames path) doc.toList = true) :
    ∃ r t', nest doc path = .ok r ∧ readUnified? r.toList = some (belowNames (sectionNames path) t') ∧
      Table.meaning t' = Table.meaning t := by
  obtain ⟨hstays, entries, parts, hread, hparts, hlast⟩ := Verbatim.exists_parts hwhole
  obtain ⟨hunified, ss, es, hss, hes, rfl⟩ := readUnified?_eq_some ht
  have hne : sectionNames path ≠ [] := by simpa [sectionNames] using hpath
  have hus := hunified.unifies
  have hd := congrArg (Option.map Document.ofStatements) hss
  have hlines := Verbatim.linesSay_readLines hus hus.length_le hss (Verbatim.isWhole_of_read hread)
  have hshort (isItem : Bool) (path : List String)
      (hheader : .header isItem path ∈ ss.flatMap Statement.said) :
      path.length ≤ doc.toList.length + 1 := by
    obtain ⟨s, hs, hmem⟩ := List.mem_flatMap.mp hheader
    have hmem : Statement.header isItem path = s := by
      cases s with
      | nothing => cases hmem
      | _ => exact List.mem_singleton.mp hmem
    have hlength := Verbatim.length_le_of_readLines? hss (hmem ▸ hs)
    have hshorter := hus.length_le
    omega
  have hsame := ofStatements_flatMap_said ss
  have hentries := Verbatim.standsFor_of_read hlines hshort (hsame ▸ hstays _ hd) hread
  rw [hsame] at hentries
  obtain ⟨hplaced, fs, hfs, hmeaning⟩ := Verbatim.exists_meaning hentries hes hparts
  have hsaid := Verbatim.says_behindPath hne hplaced.sound hplaced.first hlast
  have hparsed := parse?_below hfs hne hsaid.statements?
  have hnest : nest doc path = .ok (String.ofList (Verbatim.writeEntries .document []
      (Verbatim.behindPath (sectionNames path) (parts.foldl Verbatim.place [])))) := by
    rw [nest_eq hpath, nestChars, hread]
    simp only [bind, Except.bind, hparts]
    rfl
  refine ⟨_, toTable fs, hnest, ?_, hmeaning⟩
  rw [String.toList_ofList]
  exact (readUnified?_of_said hsaid).trans hparsed

/-- Nesting refuses a path exactly if that names no table, and a document exactly if the kept reader does,
whose faults are those of TOML. A document that moves as a whole means the same below the path. -/
theorem nest_keeps_meaning (doc path : String) :
    ((∃ fault, nest doc path = .error (.value fault)) ↔ pathParts path.toList = []) ∧
      (pathParts path.toList ≠ [] →
        (nest doc path = .error .invalidDocument ↔ Verbatim.read doc.toList = .error .invalidDocument) ∧
        ((Verbatim.read doc.toList = .error .invalidDocument ↔ readUnified? doc.toList = none) →
          (nest doc path = .error .invalidDocument ↔ readUnified? doc.toList = none)) ∧
        ∀ t, readUnified? doc.toList = some t →
          Verbatim.movesWhole (sectionNames path) doc.toList = true →
          ∃ r t', nest doc path = .ok r ∧
            readUnified? r.toList = some (belowNames (sectionNames path) t') ∧
            Table.meaning t' = Table.meaning t) := by
  refine ⟨nest_refuses_path_iff doc path, fun hpath => ⟨nest_invalid_iff hpath doc, ?_, ?_⟩⟩
  · exact fun hreader => (nest_invalid_iff hpath doc).trans hreader
  · exact fun t ht hwhole => exists_nest hpath ht hwhole

def sampleChars : List Char :=
  ("a.b = 0x1F # n\r\n\"q r\" = \x7bx.y = 'z'\x7d\r\n\r\n[x]\r\nk = [1,\r\n 2]\r\n\r\n[[e]]\r\nf.g = 1\r\n" ++
    "[[e.h]]\r\n\r\n[[e]]\r\nf = \"\"\"x\r\ny\"\"\"\r\n\r\n[s.t]\r\n[x.z]\r\nw = true").toList

def sampleTable : Table :=
  [("a", .table [("b", .int 31)]), ("q r", .table [("x", .table [("y", .text "z")])]),
    ("x", .table [("k", .list [.int 1, .int 2]), ("z", .table [("w", .bool true)])]),
    ("e", .list [.table [("f", .table [("g", .int 1)]), ("h", .list [.table []])],
      .table [("f", .text "x\ny")]]),
    ("s", .table [("t", .table [])])]

theorem readUnified?_sampleChars : readUnified? sampleChars = some sampleTable := by cbv

theorem nest_keeps_meaning_of_sample :
    readUnified? sampleChars = some sampleTable ∧
      (∃ r t, nest (String.ofList sampleChars) "tool.polisher" = .ok r ∧
        readUnified? r.toList = some [("tool", .table [("polisher", .table t)])] ∧
        Table.meaning t = Table.meaning sampleTable) ∧
      readUnified? "a =".toList = none ∧ nest "a =" "tool.polisher" = .error .invalidDocument := by
  have hnames : sectionNames "tool.polisher" = ["tool", "polisher"] := by decide +kernel
  have hpath : pathParts "tool.polisher".toList ≠ [] := by decide +kernel
  have hwhole : Verbatim.movesWhole (sectionNames "tool.polisher") sampleChars = true := by
    decide +kernel
  have hinvalid : readUnified? "a =".toList = none := by cbv
  have hreader : Verbatim.read "a =".toList = .error .invalidDocument := by rfl
  obtain ⟨-, -, hmeaning⟩ := (nest_keeps_meaning (String.ofList sampleChars) "tool.polisher").2 hpath
  rw [String.toList_ofList, hnames] at hmeaning
  obtain ⟨r, t, hr, hread, hsame⟩ := hmeaning sampleTable readUnified?_sampleChars (hnames ▸ hwhole)
  obtain ⟨-, hrefused, -⟩ := (nest_keeps_meaning "a =" "tool.polisher").2 hpath
  exact ⟨readUnified?_sampleChars, ⟨r, t, hr, hread, hsame⟩, hinvalid,
    (hrefused (iff_of_true hreader hinvalid)).mpr hinvalid⟩

theorem array_item_loses_table :
    ¬ ∀ (doc path : String) (t : Table), sectionNames path ≠ [] → readUnified? doc.toList = some t →
      ∃ r t', nest doc path = .ok r ∧
        readUnified? r.toList = some (belowNames (sectionNames path) t') ∧
        Table.meaning t' = Table.meaning t := by
  intro h
  have hnames : sectionNames "tool.polisher" = ["tool", "polisher"] := by decide +kernel
  obtain ⟨t, ht⟩ : ∃ t, readUnified? "[[a]]\n\n[a.b]\nc = 1.5\n".toList = some t :=
    Option.isSome_iff_exists.mp (by decide +kernel)
  obtain ⟨r, t', hr, hread, -⟩ := h "[[a]]\n\n[a.b]\nc = 1.5\n" "tool.polisher" t (by simp [hnames]) ht
  have hnest : (nest "[[a]]\n\n[a.b]\nc = 1.5\n" "tool.polisher").toOption =
      some "[tool.polisher]\n[[tool.polisher.a]]\n\n[a.b]\nc = 1.5\n" := by decide +kernel
  have hkeys : (readUnified? "[tool.polisher]\n[[tool.polisher.a]]\n\n[a.b]\nc = 1.5\n".toList).map
      (·.map (·.1)) = some ["tool", "a"] := by decide +kernel
  rw [hr] at hnest
  cases hnest
  rw [hread, hnames] at hkeys
  simp [belowNames] at hkeys

end FormatSettings.Toml
