import FormatSettings.Proofs.Config.Reading
import FormatSettings.Proofs.Draft.Persistence
import FormatSettings.Proofs.Table
import Mathlib.Data.List.Nodup

namespace FormatSettings

namespace Table

variable {t u : Table} {key : String}

theorem readInt_congr (h : t.lookup key = u.lookup key) : t.readInt key = u.readInt key := by
  simp only [readInt, valueOf, h]

theorem readFlag_congr (h : t.lookup key = u.lookup key) : t.readFlag key = u.readFlag key := by
  simp only [readFlag, valueOf, h]

theorem readStyleFlag_congr (h : t.lookup key = u.lookup key) :
    t.readStyleFlag key = u.readStyleFlag key := by
  simp only [readStyleFlag, h]

end Table

namespace Draft

theorem readProfile_congr {t u : Table} (h : t.lookup Key.profile = u.lookup Key.profile)
    (source : String) : readProfile t source = readProfile u source := by
  simp only [readProfile, h]

theorem readLineEnding_congr {t u : Table} (h : t.lookup Key.lineEnding = u.lookup Key.lineEnding)
    (source : String) : readLineEnding t source = readLineEnding u source := by
  rw [readLineEnding, Table.valueOf, h]
  rfl

theorem readFixes_congr {t u : Table} (h : t.lookup Key.fixes = u.lookup Key.fixes)
    (source : String) : readFixes t source = readFixes u source := by
  rw [readFixes, Table.hasKey, Table.listAt, Table.valueOf, h]
  rfl

abbrev Setting := Value ⊕ Option FixSet

namespace Field

def sectionName : Field → String
  | .profile | .indent | .pageWidth | .lineEnding | .insertSpaces | .fixes => Key.formatting
  | .block | .cascade | .expression | .constructorInitializer => Key.indent
  | .bracesOnBlockLike | .bracesOnCollectionLiterals | .bracesOnEnum | .tryClauseOnNewline
  | .ifElseOnNewline => Key.style

def key : Field → String
  | .profile => Key.profile
  | .indent => Key.indent
  | .pageWidth => Key.pageWidth
  | .lineEnding => Key.lineEnding
  | .insertSpaces => Key.insertSpaces
  | .fixes => Key.fixes
  | .block => Key.block
  | .cascade => Key.cascade
  | .expression => Key.expression
  | .constructorInitializer => Key.constructorInitializer
  | .bracesOnBlockLike => Key.bracesOnBlockLike
  | .bracesOnCollectionLiterals => Key.bracesOnCollectionLiterals
  | .bracesOnEnum => Key.bracesOnEnum
  | .tryClauseOnNewline => Key.tryClauseOnNewline
  | .ifElseOnNewline => Key.ifElseOnNewline

def readFirst : List Field :=
  [.block, .cascade, .expression, .constructorInitializer, .bracesOnBlockLike,
   .bracesOnCollectionLiterals, .bracesOnEnum, .tryClauseOnNewline, .ifElseOnNewline, .profile]

def readLast : List Field :=
  [.indent, .pageWidth, .insertSpaces, .lineEnding, .fixes]

def read (source : String) (s : Table) (f : Field) : Report Setting :=
  match f with
  | .profile => do return .inl (← readProfile s source)
  | .lineEnding => do return .inl (← readLineEnding s source)
  | .fixes => do return .inr (← readFixes s source)
  | .insertSpaces => do return .inl (← s.readFlag f.key)
  | .indent | .pageWidth | .block | .cascade | .expression | .constructorInitializer => do
    return .inl (← s.readInt f.key)
  | .bracesOnBlockLike | .bracesOnCollectionLiterals | .bracesOnEnum | .tryClauseOnNewline
  | .ifElseOnNewline => do
    return .inl (← s.readStyleFlag f.key)

theorem mem_readFirst_or_readLast (f : Field) : f ∈ readFirst ∨ f ∈ readLast := by
  cases f <;> decide

theorem mem_readLast_iff {f : Field} :
    f ∈ readLast ↔ f.sectionName = Key.formatting ∧ f ≠ .profile := by
  cases f <;> decide

theorem nodup_readFirst_readLast : (readFirst ++ readLast).Nodup := by
  decide

theorem eq_of_sectionName_of_key {f g : Field} (hs : f.sectionName = g.sectionName)
    (hk : f.key = g.key) : f = g := by
  have hplaces : ((readFirst ++ readLast).map fun f => (f.sectionName, f.key)).Nodup := by
    decide
  have hmem (f : Field) : f ∈ readFirst ++ readLast :=
    List.mem_append.mpr (mem_readFirst_or_readLast f)
  exact List.inj_on_of_nodup_map hplaces (hmem f) (hmem g) (Prod.ext hs hk)

theorem read_congr {s s' : Table} {f : Field} (h : s.lookup f.key = s'.lookup f.key)
    (source : String) : f.read source s = f.read source s' := by
  cases f with
  | profile => simp only [read, readProfile_congr h]
  | lineEnding => simp only [read, readLineEnding_congr h]
  | fixes => simp only [read, readFixes_congr h]
  | insertSpaces => simp only [read, Table.readFlag_congr h]
  | indent | pageWidth | block | cascade | expression | constructorInitializer =>
    simp only [read, Table.readInt_congr h]
  | bracesOnBlockLike | bracesOnCollectionLiterals | bracesOnEnum | tryClauseOnNewline
  | ifElseOnNewline => simp only [read, Table.readStyleFlag_congr h]

end Field

variable {d e : Draft} {f g : Field}

def setting (d : Draft) : Field → Setting
  | .profile => .inl d.profile
  | .indent => .inl d.indent
  | .pageWidth => .inl d.pageWidth
  | .lineEnding => .inl d.lineEnding
  | .insertSpaces => .inl d.insertSpaces
  | .fixes => .inr d.fixes
  | .block => .inl d.widths.block
  | .cascade => .inl d.widths.cascade
  | .expression => .inl d.widths.expression
  | .constructorInitializer => .inl d.widths.constructorInitializer
  | .bracesOnBlockLike => .inl d.style.bracesOnBlockLike
  | .bracesOnCollectionLiterals => .inl d.style.bracesOnCollectionLiterals
  | .bracesOnEnum => .inl d.style.bracesOnEnum
  | .tryClauseOnNewline => .inl d.style.tryClauseOnNewline
  | .ifElseOnNewline => .inl d.style.ifElseOnNewline

def withFieldOf (d e : Draft) : Field → Draft
  | .profile => { d with profile := e.profile }
  | .indent => { d with indent := e.indent }
  | .pageWidth => { d with pageWidth := e.pageWidth }
  | .lineEnding => { d with lineEnding := e.lineEnding }
  | .insertSpaces => { d with insertSpaces := e.insertSpaces }
  | .fixes => { d with fixes := e.fixes }
  | .block => { d with widths := { d.widths with block := e.widths.block } }
  | .cascade => { d with widths := { d.widths with cascade := e.widths.cascade } }
  | .expression => { d with widths := { d.widths with expression := e.widths.expression } }
  | .constructorInitializer =>
    { d with widths := { d.widths with constructorInitializer := e.widths.constructorInitializer } }
  | .bracesOnBlockLike =>
    { d with style := { d.style with bracesOnBlockLike := e.style.bracesOnBlockLike } }
  | .bracesOnCollectionLiterals =>
    { d with style :=
      { d.style with bracesOnCollectionLiterals := e.style.bracesOnCollectionLiterals } }
  | .bracesOnEnum => { d with style := { d.style with bracesOnEnum := e.style.bracesOnEnum } }
  | .tryClauseOnNewline =>
    { d with style := { d.style with tryClauseOnNewline := e.style.tryClauseOnNewline } }
  | .ifElseOnNewline =>
    { d with style := { d.style with ifElseOnNewline := e.style.ifElseOnNewline } }

theorem setting_withFieldOf (d e : Draft) (f : Field) :
    (d.withFieldOf e f).setting f = e.setting f := by
  cases f <;> rfl

theorem setting_withFieldOf_of_ne (d e : Draft) (h : g ≠ f) :
    (d.withFieldOf e f).setting g = d.setting g := by
  cases f <;> cases g <;> first | rfl | exact absurd rfl h

theorem sources_withFieldOf (d e : Draft) (f : Field) :
    (d.withFieldOf e f).sources = d.sources := by
  cases f <;> rfl

theorem ext_setting (h : ∀ f, d.setting f = e.setting f) (hsources : d.sources = e.sources) :
    d = e := by
  obtain ⟨profile, indent, pageWidth, lineEnding, insertSpaces, fixes, widths, style, sources⟩ := d
  obtain ⟨block, cascade, expression, constructorInitializer⟩ := widths
  obtain ⟨blockLike, collections, enum, tryClause, ifElse⟩ := style
  obtain rfl := Sum.inl.inj (h .profile)
  obtain rfl := Sum.inl.inj (h .indent)
  obtain rfl := Sum.inl.inj (h .pageWidth)
  obtain rfl := Sum.inl.inj (h .lineEnding)
  obtain rfl := Sum.inl.inj (h .insertSpaces)
  obtain rfl := Sum.inr.inj (h .fixes)
  obtain rfl := Sum.inl.inj (h .block)
  obtain rfl := Sum.inl.inj (h .cascade)
  obtain rfl := Sum.inl.inj (h .expression)
  obtain rfl := Sum.inl.inj (h .constructorInitializer)
  obtain rfl := Sum.inl.inj (h .bracesOnBlockLike)
  obtain rfl := Sum.inl.inj (h .bracesOnCollectionLiterals)
  obtain rfl := Sum.inl.inj (h .bracesOnEnum)
  obtain rfl := Sum.inl.inj (h .tryClauseOnNewline)
  obtain rfl := Sum.inl.inj (h .ifElseOnNewline)
  obtain rfl := hsources
  rfl

theorem withFieldOf_eq (h : ∀ g, g ≠ f → d.setting g = e.setting g)
    (hsources : d.sources = e.sources) : d.withFieldOf e f = e := by
  apply ext_setting
  · intro g
    by_cases hg : g = f
    · rw [hg, setting_withFieldOf]
    · rw [setting_withFieldOf_of_ne d e hg, h g hg]
  · rw [sources_withFieldOf, hsources]

end Draft

namespace Table

variable {t : Table} {f g : Draft.Field}

def entryOf (t : Table) (f : Draft.Field) : Option Value :=
  (t.tableAt f.sectionName).lookup f.key

def sectionWithoutEntry (f : Draft.Field) (name : String) : Value → Value
  | .table entries => .table (if name = f.sectionName then without entries f.key else entries)
  | v => v

def withoutEntry (t : Table) (f : Draft.Field) : Table :=
  t.map fun e => (e.1, sectionWithoutEntry f e.1 e.2)

theorem tableAt_withoutEntry (t : Table) (f : Draft.Field) (name : String) :
    (t.withoutEntry f).tableAt name =
      if name = f.sectionName then (t.tableAt name).without f.key else t.tableAt name := by
  rw [tableAt, valueOf, withoutEntry, lookup_map_entries, tableAt, valueOf]
  cases t.lookup name with
  | none => exact (ite_self _).symm
  | some v =>
    cases v with
    | table entries => rfl
    | _ => exact (ite_self _).symm

theorem entryOf_withoutEntry (t : Table) (f : Draft.Field) : (t.withoutEntry f).entryOf f = none := by
  rw [entryOf, tableAt_withoutEntry, if_pos rfl, lookup_without_self]

theorem entryOf_withoutEntry_of_ne (t : Table) (h : g ≠ f) :
    (t.withoutEntry f).entryOf g = t.entryOf g := by
  rw [entryOf, tableAt_withoutEntry]
  by_cases hs : g.sectionName = f.sectionName
  · have hk : g.key ≠ f.key := fun hk => h (Draft.Field.eq_of_sectionName_of_key hs hk)
    rw [if_pos hs, lookup_without_of_ne _ hk, entryOf]
  · rw [if_neg hs, entryOf]

theorem profileAt?_congr {u : Table} (h : t.entryOf .profile = u.entryOf .profile) :
    (t.tableAt Key.formatting).profileAt? = (u.tableAt Key.formatting).profileAt? := by
  have hprofile : (t.tableAt Key.formatting).lookup Key.profile =
      (u.tableAt Key.formatting).lookup Key.profile := h
  simp only [profileAt?, hprofile]

theorem hasReadableFixes_congr {u : Table} (h : t.entryOf .fixes = u.entryOf .fixes) :
    (t.tableAt Key.formatting).hasReadableFixes = (u.tableAt Key.formatting).hasReadableFixes := by
  have hfixes : (t.tableAt Key.formatting).lookup Key.fixes =
      (u.tableAt Key.formatting).lookup Key.fixes := h
  simp only [hasReadableFixes, listAt, valueOf, hfixes]

theorem readableProfile?_congr {u : Table} (hprofile : t.entryOf .profile = u.entryOf .profile)
    (hfixes : (t.tableAt Key.formatting).hasReadableFixes =
      (u.tableAt Key.formatting).hasReadableFixes) :
    (t.tableAt Key.formatting).readableProfile? = (u.tableAt Key.formatting).readableProfile? := by
  rw [readableProfile?, profileAt?_congr hprofile, hfixes, readableProfile?]

end Table

namespace Draft

variable {t u : Table} {file : Option String} {d e : Draft} {f : Field}

theorem sources_ofTable (h : (ofTable t file).outcome = .ok d) :
    d.sources = file.toList.map .path := by
  rw [outcome_ofTable] at h
  obtain ⟨p, -, rfl⟩ := Except.map_eq_ok.mp h
  rfl

theorem read_ofTable (h : (ofTable t file).outcome = .ok d) (f : Field) :
    (f.read (sourceText file) (t.tableAt f.sectionName)).outcome = .ok (d.setting f) := by
  rw [outcome_ofTable] at h
  obtain ⟨p, hread, rfl⟩ := Except.map_eq_ok.mp h
  obtain ⟨hp, hfixes⟩ := Table.readableProfile?_eq_ok_iff.mp hread
  -- Past the profile and the fixes, which can be read, every reader gives what the draft holds.
  cases f with
  | profile =>
    simp only [Field.read, Field.sectionName, Report.outcome_bind, outcome_readProfile, hp]
    rfl
  | lineEnding =>
    simp only [Field.read, Report.outcome_bind, outcome_readLineEnding]
    rfl
  | fixes =>
    simp only [Field.read, Field.sectionName, Report.outcome_bind, outcome_readFixes, hfixes]
    rfl
  | insertSpaces =>
    simp only [Field.read, Report.outcome_bind, Table.outcome_readFlag]
    rfl
  | indent | pageWidth | block | cascade | expression | constructorInitializer =>
    simp only [Field.read, Report.outcome_bind, Table.outcome_readInt]
    rfl
  | bracesOnBlockLike | bracesOnCollectionLiterals | bracesOnEnum | tryClauseOnNewline
  | ifElseOnNewline =>
    simp only [Field.read, Report.outcome_bind, Table.outcome_readStyleFlag]
    rfl

theorem setting_congr (ht : (ofTable t file).outcome = .ok d) (hu : (ofTable u file).outcome = .ok e)
    (h : t.entryOf f = u.entryOf f) : d.setting f = e.setting f := by
  have hd := read_ofTable ht f
  rw [Field.read_congr h, read_ofTable hu f] at hd
  exact (Except.ok.inj hd).symm

theorem sources_congr (ht : (ofTable t file).outcome = .ok d)
    (hu : (ofTable u file).outcome = .ok e) : d.sources = e.sources := by
  rw [sources_ofTable ht, sources_ofTable hu]

def warningsOn (t : Table) (source : String) (f : Field) : List Notice :=
  (f.read source (t.tableAt f.sectionName)).warnings

def fieldsRead (t : Table) : List Field :=
  match (t.tableAt Key.formatting).profileAt? with
  | .ok _ => Field.readFirst ++ Field.readLast
  | .error _ => Field.readFirst

theorem warnings_widths (t : Table) :
    (Widths.Draft.ofTable t).warnings =
      (t.readInt Key.block).warnings ++ ((t.readInt Key.cascade).warnings ++
        ((t.readInt Key.expression).warnings ++
          (t.readInt Key.constructorInitializer).warnings)) := by
  rw [Widths.Draft.ofTable, Report.warnings_bind_of_ok (t.outcome_readInt _),
    Report.warnings_bind_of_ok (t.outcome_readInt _),
    Report.warnings_bind_of_ok (t.outcome_readInt _), Report.warnings_bind_pure]

theorem warnings_style (t : Table) :
    (Style.Draft.ofTable t).warnings =
      (t.readStyleFlag Key.bracesOnBlockLike).warnings ++
        ((t.readStyleFlag Key.bracesOnCollectionLiterals).warnings ++
          ((t.readStyleFlag Key.bracesOnEnum).warnings ++
            ((t.readStyleFlag Key.tryClauseOnNewline).warnings ++
              (t.readStyleFlag Key.ifElseOnNewline).warnings))) := by
  rw [Style.Draft.ofTable, Report.warnings_bind_of_ok (t.outcome_readStyleFlag _),
    Report.warnings_bind_of_ok (t.outcome_readStyleFlag _),
    Report.warnings_bind_of_ok (t.outcome_readStyleFlag _),
    Report.warnings_bind_of_ok (t.outcome_readStyleFlag _), Report.warnings_bind_pure]

theorem warnings_ofTable (t : Table) (file : Option String) :
    (ofTable t file).warnings = (fieldsRead t).flatMap (warningsOn t (sourceText file)) := by
  have hprofile := outcome_readProfile (t.tableAt Key.formatting) (sourceText file)
  unfold ofTable
  simp only [Report.warnings_trace_bind]
  rw [Report.warnings_bind_of_ok (Widths.Draft.outcome_ofTable _),
    Report.warnings_bind_of_ok (Style.Draft.outcome_ofTable _), Report.warnings_bind,
    warnings_widths, warnings_style, fieldsRead]
  -- A token that cannot be read ends the reading, and the later settings give no warnings.
  cases hp : (t.tableAt Key.formatting).profileAt? with
  | error fault =>
    rw [hp] at hprofile
    rw [hprofile]
    simp only [Field.readFirst, List.flatMap_cons, List.flatMap_nil, List.append_assoc, warningsOn,
      Field.read, Report.warnings_bind_pure]
    rfl
  | ok p =>
    rw [hp] at hprofile
    rw [hprofile]
    change _ ++ (_ ++ (_ ++ (Table.readInt _ _ >>= _).warnings)) = _
    rw [Report.warnings_bind_of_ok (Table.outcome_readInt _ _),
      Report.warnings_bind_of_ok (Table.outcome_readInt _ _),
      Report.warnings_bind_of_ok (Table.outcome_readFlag _ _),
      Report.warnings_bind_of_ok (outcome_readLineEnding _ _), Report.warnings_bind_pure]
    simp only [Field.readFirst, Field.readLast, List.flatMap_append, List.flatMap_cons,
      List.flatMap_nil, List.append_assoc, List.append_nil, warningsOn, Field.read,
      Report.warnings_bind_pure]
    rfl

theorem fieldsRead_withoutEntry (hf : f ≠ .profile) (t : Table) :
    fieldsRead (t.withoutEntry f) = fieldsRead t := by
  have hprofile := t.entryOf_withoutEntry_of_ne hf.symm
  rw [fieldsRead, Table.profileAt?_congr hprofile, fieldsRead]

theorem warningsOn_withoutEntry (t : Table) (source : String) {g : Field} (h : g ≠ f) :
    warningsOn (t.withoutEntry f) source g = warningsOn t source g := by
  rw [warningsOn, Field.read_congr (t.entryOf_withoutEntry_of_ne h), warningsOn]

theorem outcome_ofTable_map {φ : Draft → Draft}
    (h : (t.tableAt Key.formatting).readableProfile? = (u.tableAt Key.formatting).readableProfile?)
    (hdrafts : ∀ d e, (ofTable t file).outcome = .ok d → (ofTable u file).outcome = .ok e → d = φ e) :
    (ofTable t file).outcome = (ofTable u file).outcome.map φ := by
  have ht := outcome_ofTable t file
  have hu := outcome_ofTable u file
  rw [h] at ht
  cases hp : (u.tableAt Key.formatting).readableProfile? with
  | error fault =>
    rw [hp] at ht hu
    rw [ht, hu]
    rfl
  | ok p =>
    rw [hp] at ht hu
    rw [hu]
    exact ht.trans (congrArg Except.ok (hdrafts _ _ ht hu))

theorem outcome_ofTable_of_settings
    (h : (t.tableAt Key.formatting).readableProfile? = (u.tableAt Key.formatting).readableProfile?)
    (hsettings : ∀ d e, (ofTable t file).outcome = .ok d → (ofTable u file).outcome = .ok e →
      ∀ f, d.setting f = e.setting f) :
    (ofTable t file).outcome = (ofTable u file).outcome := by
  have hmap := outcome_ofTable_map (φ := id) h fun d e hd he =>
    ext_setting (hsettings d e hd he) (sources_congr hd he)
  rwa [Except.map_id] at hmap

/-- Tables that agree on all keys but one, and load, set drafts that differ at most in the setting of that
key. Tables that agree on all keys come to the same, whatever else they hold. -/
theorem differing_key_changes_own_setting (t u : Table) (file : Option String) :
    (∀ f, (∀ g, g ≠ f → t.entryOf g = u.entryOf g) → ∀ d e,
        (ofTable t file).outcome = .ok d → (ofTable u file).outcome = .ok e →
        d.withFieldOf e f = e) ∧
      ((∀ f, t.entryOf f = u.entryOf f) → (ofTable t file).outcome = (ofTable u file).outcome) := by
  constructor
  · intro f h d e ht hu
    apply withFieldOf_eq
    · intro g hg
      exact setting_congr ht hu (h g hg)
    · exact sources_congr ht hu
  · intro h
    apply outcome_ofTable_of_settings
      (Table.readableProfile?_congr (h .profile) (Table.hasReadableFixes_congr (h .fixes)))
    intro d e ht hu f
    exact setting_congr ht hu (h f)

def wideTable : Table :=
  [(Key.formatting, .table [(Key.indent, .int 4), (Key.pageWidth, .int 100)]),
   (Key.indent, .table [(Key.block, .int 3)])]

def mistypedIndentTable : Table :=
  [(Key.indent, .table [(Key.indent, .int 7), (Key.block, .int 3)]),
   (Key.formatting, .table [(Key.pageWidth, .int 100), (Key.indent, .table [])])]

theorem differing_indent_changes_indent :
    (∃ d e, (ofTable wideTable none).outcome = .ok d ∧
      (ofTable mistypedIndentTable none).outcome = .ok e ∧ d.withFieldOf e .indent = e ∧
      d.indent = .int 4 ∧ e.indent = .null) ∧
    (ofTable ((Key.tool, .text "other") :: wideTable) none).outcome =
      (ofTable wideTable none).outcome := by
  have hagree : ∀ g, g ≠ Field.indent → wideTable.entryOf g = mistypedIndentTable.entryOf g := by
    intro g hg
    cases g with
    | indent => exact absurd rfl hg
    | _ => rfl
  have hall : ∀ f, Table.entryOf ((Key.tool, .text "other") :: wideTable) f = wideTable.entryOf f := by
    intro f
    cases f <;> rfl
  constructor
  · refine ⟨_, _, rfl, rfl, ?_, rfl, rfl⟩
    exact (differing_key_changes_own_setting _ _ none).1 .indent hagree _ _ rfl rfl
  · exact (differing_key_changes_own_setting _ _ none).2 hall

end Draft

end FormatSettings
