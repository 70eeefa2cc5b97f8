import FormatSettings.Proofs.Config.Keys

namespace FormatSettings

namespace Draft

inductive Kind
  | integer
  | flag
  | lineEnding

namespace Kind

def accepts : Kind → Value → Bool
  | .integer, .int _ => true
  | .flag, .bool _ => true
  | .lineEnding, v => (LineEnding.selected? v).isSome
  | _, _ => false

def stored : Kind → Value → Value
  | .integer, .int i => .int i
  | .flag, .bool b => .bool b
  | .lineEnding, v => Value.ofOption (fun e => .text e.newline) (LineEnding.selected? v)
  | _, _ => .null

def notices (k : Kind) (complaint : Message) (v : Value) : List Notice :=
  if v.isNull || k.accepts v then [] else [⟨.warning, complaint⟩]

theorem stored_of_not_accepts {k : Kind} {v : Value} (h : k.accepts v = false) :
    k.stored v = .null := by
  cases k with
  | integer =>
    cases v with
    | int i => cases h
    | _ => rfl
  | flag =>
    cases v with
    | bool b => cases h
    | _ => rfl
  | lineEnding =>
    have hnone : LineEnding.selected? v = none := by simpa [accepts] using h
    rw [stored, hnone]
    rfl

theorem stored_null (k : Kind) : k.stored .null = .null := by
  cases k <;> rfl

theorem notices_of_accepts {k : Kind} {v : Value} (h : k.accepts v = true) (complaint : Message) :
    k.notices complaint v = [] := by
  rw [notices, h, Bool.or_true]
  rfl

theorem notices_of_not_accepts {k : Kind} {v : Value} (h : k.accepts v = false) (hnull : v ≠ .null)
    (complaint : Message) : k.notices complaint v = [⟨.warning, complaint⟩] := by
  rw [notices, h, Value.isNull_eq_false hnull]
  rfl

end Kind

end Draft

namespace Table

open Draft (Kind)

theorem readInt_eq (t : Table) (key : String) :
    t.readInt key = ⟨Kind.integer.notices (notIntText key (t.valueOf key)) (t.valueOf key),
      .ok (Kind.integer.stored (t.valueOf key))⟩ := by
  unfold readInt
  cases t.valueOf key <;> rfl

theorem readFlag_eq (t : Table) (key : String) :
    t.readFlag key = ⟨Kind.flag.notices (notFlagText key (t.valueOf key)) (t.valueOf key),
      .ok (Kind.flag.stored (t.valueOf key))⟩ := by
  unfold readFlag
  cases t.valueOf key <;> rfl

theorem readStyleFlag_eq {t : Table} {key : String} (h : t.lookup key ≠ some .null) :
    t.readStyleFlag key = ⟨Kind.flag.notices (notStyleFlagText key (t.valueOf key)) (t.valueOf key),
      .ok (Kind.flag.stored (t.valueOf key))⟩ := by
  unfold readStyleFlag valueOf
  cases hv : t.lookup key with
  | none => rfl
  | some v =>
    cases v with
    | null => exact absurd hv h
    | _ => rfl

end Table

namespace Draft

def lineEndingComplaint (source : String) (v : Value) : Message :=
  if v.asText?.isSome then LineEnding.unknownText v source else notTextText source v

theorem readLineEnding_eq (t : Table) (source : String) :
    readLineEnding t source =
      ⟨Kind.lineEnding.notices (lineEndingComplaint source (t.valueOf Key.lineEnding))
        (t.valueOf Key.lineEnding), .ok (Kind.lineEnding.stored (t.valueOf Key.lineEnding))⟩ := by
  unfold readLineEnding
  generalize t.valueOf Key.lineEnding = v
  simp only
  cases htext : v.asText? with
  | none =>
    have hnone : LineEnding.selected? v = none := by
      simp [LineEnding.selected?, LineEnding.ofNewlineValue?, LineEnding.ofNameValue?, htext]
    simp only [Kind.notices, Kind.accepts, Kind.stored, hnone, lineEndingComplaint, htext]
    cases v.isNull <;> rfl
  | some s =>
    have hnull : v ≠ .null := by
      rintro rfl
      cases htext
    simp only [LineEnding.ofToken_eq hnull, Kind.notices, Kind.accepts, Kind.stored, lineEndingComplaint, htext,
      Value.isNull_eq_false hnull]
    cases LineEnding.selected? v <;> rfl

namespace Field

def kind? : Field → Option Kind
  | .profile | .fixes => none
  | .lineEnding => some .lineEnding
  | .insertSpaces | .bracesOnBlockLike | .bracesOnCollectionLiterals | .bracesOnEnum
  | .tryClauseOnNewline | .ifElseOnNewline => some .flag
  | .indent | .pageWidth | .block | .cascade | .expression | .constructorInitializer =>
    some .integer

def complaint (source : String) (v : Value) (f : Field) : Message :=
  match f with
  | .lineEnding => lineEndingComplaint source v
  | .insertSpaces => Table.notFlagText f.key v
  | .bracesOnBlockLike | .bracesOnCollectionLiterals | .bracesOnEnum | .tryClauseOnNewline
  | .ifElseOnNewline => Table.notStyleFlagText f.key v
  | _ => Table.notIntText f.key v

variable {s : Table} {f : Field} {k : Kind}

theorem read_scalar (hk : f.kind? = some k) (hnull : s.lookup f.key ≠ some .null) (source : String) :
    f.read source s = ⟨k.notices (f.complaint source (s.valueOf f.key)) (s.valueOf f.key),
      .ok (.inl (k.stored (s.valueOf f.key)))⟩ := by
  cases f with
  | profile | fixes => cases hk
  | lineEnding =>
    cases hk
    rw [read, readLineEnding_eq, Report.mk_bind_pure]
    rfl
  | insertSpaces =>
    cases hk
    rw [read, Table.readFlag_eq, Report.mk_bind_pure]
    rfl
  | indent | pageWidth | block | cascade | expression | constructorInitializer =>
    cases hk
    rw [read, Table.readInt_eq, Report.mk_bind_pure]
    rfl
  | bracesOnBlockLike | bracesOnCollectionLiterals | bracesOnEnum | tryClauseOnNewline
  | ifElseOnNewline =>
    cases hk
    rw [read, Table.readStyleFlag_eq hnull, Report.mk_bind_pure]
    rfl

end Field

variable {t : Table} {f : Field} {k : Kind} {v : Value}

theorem valueOf_of_entryOf (h : t.entryOf f = some v) :
    (t.tableAt f.sectionName).valueOf f.key = v := by
  rw [Table.valueOf]
  exact congrArg (·.getD .null) h

theorem read_of_entryOf (hk : f.kind? = some k) (h : t.entryOf f = some v) (hnull : v ≠ .null)
    (source : String) :
    f.read source (t.tableAt f.sectionName) =
      ⟨k.notices (f.complaint source v) v, .ok (.inl (k.stored v))⟩ := by
  have hlookup : (t.tableAt f.sectionName).lookup f.key ≠ some .null := by
    intro hv
    exact hnull (Option.some.inj (h.symm.trans hv))
  rw [Field.read_scalar hk hlookup, valueOf_of_entryOf h]

theorem read_withoutEntry (hk : f.kind? = some k) (t : Table) (source : String) :
    f.read source ((t.withoutEntry f).tableAt f.sectionName) = ⟨[], .ok (.inl .null)⟩ := by
  have hnone : ((t.withoutEntry f).tableAt f.sectionName).lookup f.key = none :=
    t.entryOf_withoutEntry f
  have hlookup : ((t.withoutEntry f).tableAt f.sectionName).lookup f.key ≠ some .null := by
    rw [hnone]
    nofun
  rw [Field.read_scalar hk hlookup, Table.valueOf, hnone, Option.getD_none, Kind.stored_null]
  rfl

theorem ne_profile_of_kind (hk : f.kind? = some k) : f ≠ .profile := by
  rintro rfl
  cases hk

theorem ne_fixes_of_kind (hk : f.kind? = some k) : f ≠ .fixes := by
  rintro rfl
  cases hk

theorem mem_fieldsRead {file : Option String}
    (h : f.sectionName = Key.formatting → ∃ d, (ofTable t file).outcome = .ok d) :
    f ∈ fieldsRead t := by
  rw [fieldsRead]
  cases hp : (t.tableAt Key.formatting).profileAt? with
  | ok p => exact List.mem_append.mpr (Field.mem_readFirst_or_readLast f)
  | error fault =>
    rcases Field.mem_readFirst_or_readLast f with hfirst | hlast
    · exact hfirst
    · obtain ⟨d, hd⟩ := h (Field.mem_readLast_iff.mp hlast).1
      rw [outcome_ofTable, Table.readableProfile?, hp] at hd
      cases hd

theorem nodup_fieldsRead (t : Table) : (fieldsRead t).Nodup := by
  have hall := Field.nodup_readFirst_readLast
  rw [fieldsRead]
  cases (t.tableAt Key.formatting).profileAt? with
  | ok p => exact hall
  | error fault => exact (List.nodup_append.mp hall).1

theorem outcome_withoutEntry (hk : f.kind? = some k) (h : t.entryOf f = some v)
    (hv : k.accepts v = false) (hnull : v ≠ .null) (file : Option String) :
    (ofTable t file).outcome = (ofTable (t.withoutEntry f) file).outcome := by
  apply outcome_ofTable_of_settings
  · exact Table.readableProfile?_congr
      (t.entryOf_withoutEntry_of_ne (ne_profile_of_kind hk).symm).symm
      (Table.hasReadableFixes_congr
        (t.entryOf_withoutEntry_of_ne (ne_fixes_of_kind hk).symm).symm)
  · intro d e hd he g
    by_cases hg : g = f
    · subst hg
      have hread := read_ofTable hd g
      have hread' := read_ofTable he g
      rw [read_of_entryOf hk h hnull, Kind.stored_of_not_accepts hv] at hread
      rw [read_withoutEntry hk] at hread'
      exact Except.ok.inj (hread.symm.trans hread')
    · exact setting_congr hd he (t.entryOf_withoutEntry_of_ne hg).symm

theorem exists_flatMap_eq {α β : Type} {l : List α} {x : α} {p q : α → List β} (hnodup : l.Nodup)
    (hx : x ∈ l) (h : ∀ y, y ≠ x → p y = q y) :
    ∃ before after, l.flatMap p = before ++ (p x ++ after) ∧
      l.flatMap q = before ++ (q x ++ after) := by
  obtain ⟨first, last, rfl⟩ := List.append_of_mem hx
  have hnot := (List.nodup_cons.mp (List.nodup_middle.mp hnodup)).1
  have hothers {l : List α} (hl : ∀ y ∈ l, y ∈ first ++ last) : l.flatMap p = l.flatMap q := by
    apply List.flatMap_congr
    intro y hy
    apply h
    rintro rfl
    exact hnot (hl y hy)
  refine ⟨first.flatMap q, last.flatMap q, ?_, ?_⟩
  · rw [List.flatMap_append, List.flatMap_cons, hothers fun y hy => List.mem_append_left _ hy,
      hothers fun y hy => List.mem_append_right _ hy]
  · rw [List.flatMap_append, List.flatMap_cons]

/-- A scalar setting whose value is of the wrong kind sets what the table sets without its key, and where
it is read it adds one warning to those of the table without it. A value of the right kind adds none. -/
theorem mistyped_scalar_reads_as_absent (t : Table) (file : Option String) (f : Field) (k : Kind)
    (v : Value) (hk : f.kind? = some k) (h : t.entryOf f = some v) (hnull : v ≠ .null) :
    (k.accepts v = false →
        (ofTable t file).outcome = (ofTable (t.withoutEntry f) file).outcome ∧
        ((f.sectionName = Key.formatting → ∃ d, (ofTable t file).outcome = .ok d) →
          ∃ before after, (ofTable (t.withoutEntry f) file).warnings = before ++ after ∧
            (ofTable t file).warnings =
              before ++ ⟨.warning, f.complaint (sourceText file) v⟩ :: after)) ∧
      (k.accepts v = true →
        (ofTable t file).warnings = (ofTable (t.withoutEntry f) file).warnings) := by
  have hpresent : warningsOn t (sourceText file) f =
      (k.notices (f.complaint (sourceText file) v) v).filter (·.severity == .warning) := by
    rw [warningsOn, read_of_entryOf hk h hnull]
    rfl
  have habsent : warningsOn (t.withoutEntry f) (sourceText file) f = [] := by
    rw [warningsOn, read_withoutEntry hk]
    rfl
  have hothers : ∀ g, g ≠ f →
      warningsOn (t.withoutEntry f) (sourceText file) g = warningsOn t (sourceText file) g :=
    fun g hg => warningsOn_withoutEntry t _ hg
  -- Both lists of warnings are put together of the same parts, but for that of the setting.
  rw [warnings_ofTable, warnings_ofTable, fieldsRead_withoutEntry (ne_profile_of_kind hk)]
  constructor
  · intro hv
    refine ⟨outcome_withoutEntry hk h hv hnull file, fun hloads => ?_⟩
    obtain ⟨before, after, hwithout, hwith⟩ :=
      exists_flatMap_eq (nodup_fieldsRead t) (mem_fieldsRead hloads) hothers
    refine ⟨before, after, ?_, ?_⟩
    · rw [hwithout, habsent, List.nil_append]
    · rw [hwith, hpresent, Kind.notices_of_not_accepts hv hnull]
      rfl
  · intro hv
    apply List.flatMap_congr
    intro g _
    by_cases hg : g = f
    · rw [hg, habsent, hpresent, Kind.notices_of_accepts hv]
      rfl
    · exact (hothers g hg).symm

def mixedTable : Table :=
  [(Key.formatting, .table [(Key.lineEnding, .text "unix"), (Key.indent, .bool true),
    (Key.pageWidth, .int 0)])]

theorem unknown_token_reads_as_absent :
    (ofTable mixedTable none).outcome =
        (ofTable (mixedTable.withoutEntry .lineEnding) none).outcome ∧
      (∃ before after,
        (ofTable (mixedTable.withoutEntry .lineEnding) none).warnings = before ++ after ∧
        (ofTable mixedTable none).warnings =
          before ++ ⟨.warning, LineEnding.unknownText (.text "unix") "<dict>"⟩ :: after) ∧
      (ofTable mixedTable none).warnings =
        (ofTable (mixedTable.withoutEntry .pageWidth) none).warnings := by
  have hunknown : Kind.lineEnding.accepts (.text "unix") = false := by
    decide +kernel
  have hloads : ∃ d, (ofTable mixedTable none).outcome = .ok d := ⟨_, outcome_ofTable _ _⟩
  obtain ⟨houtcome, hwarnings⟩ := (mistyped_scalar_reads_as_absent mixedTable none .lineEnding
    .lineEnding (.text "unix") rfl rfl nofun).1 hunknown
  have hwidth := (mistyped_scalar_reads_as_absent mixedTable none .pageWidth .integer (.int 0) rfl rfl
    nofun).2 rfl
  exact ⟨houtcome, hwarnings fun _ => hloads, hwidth⟩

end Draft

end FormatSettings
