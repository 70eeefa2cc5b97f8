import FormatSettings.Proofs.CommandLine.Precedence
import FormatSettings.Proofs.Config.Reading

/-!
The two ways to give settings: as the sections of a config file, and as arguments. Their keys differ,
and so does what counts as missing; the options that they freeze to do not.
-/

namespace FormatSettings

namespace Table

def Holds (t : Table) (settings : List (String × Option Value)) : Prop :=
  ∀ e ∈ settings, t.lookup e.1 = e.2

def ofSettings (settings : List (String × Option Value)) : Table :=
  settings.filterMap fun e => e.2.map fun v => (e.1, v)

theorem lookup_ofSettings_of_notMem {settings : List (String × Option Value)} {key : String}
    (h : key ∉ settings.map Prod.fst) : (ofSettings settings).lookup key = none := by
  rw [List.lookup_eq_none_iff]
  intro e he
  obtain ⟨⟨key', v?⟩, hmem, hv⟩ := List.mem_filterMap.mp he
  obtain ⟨v, -, rfl⟩ := Option.map_eq_some_iff.mp hv
  have hne : key ≠ key' := by
    rintro rfl
    exact h (List.mem_map.mpr ⟨_, hmem, rfl⟩)
  simpa using hne

theorem lookup_ofSettings_of_mem {settings : List (String × Option Value)}
    (h : (settings.map Prod.fst).Nodup) {key : String} {v? : Option Value}
    (hmem : (key, v?) ∈ settings) : (ofSettings settings).lookup key = v? := by
  induction settings with
  | nil => cases hmem
  | cons e settings ih =>
    obtain ⟨first, w?⟩ := e
    obtain ⟨hfirst, hrest⟩ := List.nodup_cons.mp h
    by_cases hkey : key = first
    · subst hkey
      obtain rfl : v? = w? := by
        rcases List.mem_cons.mp hmem with heq | hmem
        · exact (Prod.mk.inj heq).2
        · exact absurd (List.mem_map.mpr ⟨_, hmem, rfl⟩) hfirst
      -- No key stands twice, so a key without a value is not found further on either.
      cases v? with
      | none =>
        have hrest : (ofSettings settings).lookup key = none := lookup_ofSettings_of_notMem hfirst
        exact hrest
      | some v => exact List.lookup_cons_self
    · have hmem : (key, v?) ∈ settings := by
        rcases List.mem_cons.mp hmem with heq | hmem
        · exact absurd (Prod.mk.inj heq).1 hkey
        · exact hmem
      have hlookup : (ofSettings ((first, w?) :: settings)).lookup key =
          (ofSettings settings).lookup key := by
        cases w? with
        | none => rfl
        | some w =>
          change List.lookup key ((first, w) :: ofSettings settings) = _
          rw [List.lookup_cons, beq_false_of_ne hkey]
      exact hlookup.trans (ih hrest hmem)

theorem holds_ofSettings {settings : List (String × Option Value)}
    (h : (settings.map Prod.fst).Nodup) : (ofSettings settings).Holds settings :=
  fun _ hmem => lookup_ofSettings_of_mem h hmem

theorem valueOf_of_lookup {α : Type} {wrap : α → Value} {t : Table} {key : String} {a? : Option α}
    (h : t.lookup key = a?.map wrap) : t.valueOf key = Value.ofOption wrap a? := by
  rw [valueOf, h]
  cases a? with
  | none => rfl
  | some a => rfl

theorem intAt?_of_lookup {t : Table} {key : String} {i? : Option Int}
    (h : t.lookup key = i?.map .int) : t.intAt? key = i? := by
  rw [intAt?, valueOf_of_lookup h]
  cases i? with
  | none => rfl
  | some i => rfl

theorem flagAt?_of_lookup {t : Table} {key : String} {b? : Option Bool}
    (h : t.lookup key = b?.map .bool) : t.flagAt? key = b? := by
  rw [flagAt?, valueOf_of_lookup h]
  cases b? with
  | none => rfl
  | some b => rfl

end Table

inductive ProfileToken
  | name (s : String)
  | code (i : Int)

def ProfileToken.value : ProfileToken → Value
  | .name s => .text s
  | .code i => .int i

/-- Settings of the right types, each of which may be missing. Numbers may be out of range, and tokens
may be unknown. -/
structure Assignment where
  profile : Option ProfileToken := none
  indent : Option Int := none
  pageWidth : Option Int := none
  lineEnding : Option String := none
  insertSpaces : Option Bool := none
  fixes : Option (List String) := none
  block : Option Int := none
  cascade : Option Int := none
  expression : Option Int := none
  constructorInitializer : Option Int := none

namespace Assignment

def formattingSettings (s : Assignment) : List (String × Option Value) :=
  [(Key.profile, s.profile.map ProfileToken.value), (Key.indent, s.indent.map .int),
   (Key.pageWidth, s.pageWidth.map .int), (Key.lineEnding, s.lineEnding.map .text),
   (Key.insertSpaces, s.insertSpaces.map .bool),
   (Key.fixes, s.fixes.map fun tokens => .list (tokens.map .text))]

def widthSettings (s : Assignment) : List (String × Option Value) :=
  [(Key.block, s.block.map .int), (Key.cascade, s.cascade.map .int),
   (Key.expression, s.expression.map .int),
   (Key.constructorInitializer, s.constructorInitializer.map .int)]

def widthArgumentSettings (s : Assignment) : List (String × Option Value) :=
  [(Key.blockIndent, s.block.map .int), (Key.cascadeIndent, s.cascade.map .int),
   (Key.expressionIndent, s.expression.map .int),
   (Key.constructorInitializerIndent, s.constructorInitializer.map .int)]

/-- A table has these settings in its sections, and no style flags. -/
structure InSections (s : Assignment) (t : Table) : Prop where
  formatting : (t.tableAt Key.formatting).Holds s.formattingSettings
  widths : (t.tableAt Key.indent).Holds s.widthSettings
  style : t.tableAt Key.style = []

structure InArguments (s : Assignment) (args : Table) : Prop where
  formatting : args.Holds s.formattingSettings
  widths : args.Holds s.widthArgumentSettings

def sections (s : Assignment) : Table :=
  [(Key.formatting, .table (Table.ofSettings s.formattingSettings)),
   (Key.indent, .table (Table.ofSettings s.widthSettings))]

def arguments (s : Assignment) : Table :=
  Table.ofSettings (s.formattingSettings ++ s.widthArgumentSettings)

theorem inSections_sections (s : Assignment) : s.InSections s.sections := by
  have hformatting : (s.formattingSettings.map Prod.fst).Nodup :=
    show [Key.profile, Key.indent, Key.pageWidth, Key.lineEnding, Key.insertSpaces,
      Key.fixes].Nodup by decide
  have hwidths : (s.widthSettings.map Prod.fst).Nodup :=
    show [Key.block, Key.cascade, Key.expression, Key.constructorInitializer].Nodup by decide
  exact ⟨Table.holds_ofSettings hformatting, Table.holds_ofSettings hwidths, rfl⟩

theorem inArguments_arguments (s : Assignment) : s.InArguments s.arguments := by
  have hkeys : ((s.formattingSettings ++ s.widthArgumentSettings).map Prod.fst).Nodup :=
    show [Key.profile, Key.indent, Key.pageWidth, Key.lineEnding, Key.insertSpaces, Key.fixes,
      Key.blockIndent, Key.cascadeIndent, Key.expressionIndent,
      Key.constructorInitializerIndent].Nodup by decide
  obtain ⟨hformatting, hwidths⟩ := List.forall_mem_append.mp (Table.holds_ofSettings hkeys)
  exact ⟨hformatting, hwidths⟩

variable {s : Assignment} {t : Table}

theorem lookup_formatting (h : t.Holds s.formattingSettings) :
    t.lookup Key.profile = s.profile.map ProfileToken.value ∧
      t.lookup Key.indent = s.indent.map .int ∧ t.lookup Key.pageWidth = s.pageWidth.map .int ∧
      t.lookup Key.lineEnding = s.lineEnding.map .text ∧
      t.lookup Key.insertSpaces = s.insertSpaces.map .bool ∧
      t.lookup Key.fixes = s.fixes.map fun tokens => .list (tokens.map .text) := by
  simpa [Table.Holds, formattingSettings] using h

theorem lookup_widths (h : t.Holds s.widthSettings) :
    t.lookup Key.block = s.block.map .int ∧ t.lookup Key.cascade = s.cascade.map .int ∧
      t.lookup Key.expression = s.expression.map .int ∧
      t.lookup Key.constructorInitializer = s.constructorInitializer.map .int := by
  simpa [Table.Holds, widthSettings] using h

theorem lookup_widthArguments (h : t.Holds s.widthArgumentSettings) :
    t.lookup Key.blockIndent = s.block.map .int ∧
      t.lookup Key.cascadeIndent = s.cascade.map .int ∧
      t.lookup Key.expressionIndent = s.expression.map .int ∧
      t.lookup Key.constructorInitializerIndent = s.constructorInitializer.map .int := by
  simpa [Table.Holds, widthArgumentSettings] using h

theorem fixesAt?_of_lookup {tokens? : Option (List String)}
    (h : t.lookup Key.fixes = tokens?.map fun tokens => .list (tokens.map .text)) :
    t.fixesAt? = tokens?.map fun tokens => FixSet.ofFixes (tokens.filterMap Fix.parse?) := by
  rw [Table.fixesAt?, Table.hasKey, Table.listAt, Table.valueOf, h]
  cases tokens? with
  | none => rfl
  | some tokens =>
    simp only [Option.map_some, Option.isSome_some, ↓reduceIte, Option.getD_some,
      Fix.filterMap_tokenText]

theorem lineEndingAt?_of_lookup {token? : Option String}
    (h : t.lookup Key.lineEnding = token?.map .text) :
    t.lineEndingAt? = token?.bind fun token => LineEnding.selected? (.text token) := by
  rw [Table.lineEndingAt?, Table.valueOf_of_lookup h]
  cases token? with
  | none => rfl
  | some token => rfl

def selectedProfile (s : Assignment) : Except ValueFault (Option Profile) :=
  match s.profile with
  | none => .ok none
  | some token => (Profile.chosen token.value).map some

def selectedFixes (s : Assignment) : Option FixSet :=
  s.fixes.map fun tokens => FixSet.ofFixes (tokens.filterMap Fix.parse?)

def selectedLineEnding (s : Assignment) : Option LineEnding :=
  s.lineEnding.bind fun token => LineEnding.selected? (.text token)

def draft (s : Assignment) (profile : Option Profile) (fixes : Option FixSet)
    (sources : List Value) : Draft where
  profile := Value.ofOption .profile profile
  indent := Value.ofOption .int s.indent
  pageWidth := Value.ofOption .int s.pageWidth
  lineEnding := Value.ofOption (fun e => .text e.newline) s.selectedLineEnding
  insertSpaces := Value.ofOption .bool s.insertSpaces
  fixes := fixes
  widths :=
    { block := Value.ofOption .int s.block
      cascade := Value.ofOption .int s.cascade
      expression := Value.ofOption .int s.expression
      constructorInitializer := Value.ofOption .int s.constructorInitializer }
  sources := sources

theorem profileAt?_of_inSections (h : s.InSections t) :
    (t.tableAt Key.formatting).profileAt? = s.selectedProfile := by
  obtain ⟨hprofile, -⟩ := lookup_formatting h.formatting
  rw [Table.profileAt?, hprofile, selectedProfile]
  cases s.profile with
  | none => rfl
  | some token => rfl

theorem readableProfile?_of_inSections (h : s.InSections t) :
    (t.tableAt Key.formatting).readableProfile? = s.selectedProfile.mapError .value := by
  obtain ⟨-, -, -, -, -, hfixes⟩ := lookup_formatting h.formatting
  have hreadable : (t.tableAt Key.formatting).hasReadableFixes = true := by
    rw [Table.hasReadableFixes, Table.listAt, Table.valueOf, hfixes]
    cases s.fixes with
    | none => rfl
    | some tokens => exact Value.areWritable_map (fun _ => rfl) tokens
  rw [Table.readableProfile?, profileAt?_of_inSections h, hreadable]
  cases s.selectedProfile <;> rfl

theorem ofSettings_of_inSections (h : s.InSections t) (file : Option String)
    (profile : Option Profile) :
    Draft.ofSettings t file profile =
      s.draft profile s.selectedFixes (file.toList.map .path) := by
  obtain ⟨-, hindent, hpageWidth, hlineEnding, hinsertSpaces, hfixes⟩ :=
    lookup_formatting h.formatting
  obtain ⟨hblock, hcascade, hexpression, hinitializer⟩ := lookup_widths h.widths
  have hwidths : (t.tableAt Key.indent).widths = (s.draft profile s.selectedFixes []).widths := by
    rw [Table.widths, Table.intAt?_of_lookup hblock, Table.intAt?_of_lookup hcascade,
      Table.intAt?_of_lookup hexpression, Table.intAt?_of_lookup hinitializer]
    rfl
  rw [Draft.ofSettings, Table.intAt?_of_lookup hindent, Table.intAt?_of_lookup hpageWidth,
    lineEndingAt?_of_lookup hlineEnding, Table.flagAt?_of_lookup hinsertSpaces,
    fixesAt?_of_lookup hfixes, hwidths, h.style]
  rfl

theorem outcome_ofTable (h : s.InSections t) (file : Option String) :
    (Draft.ofTable t file).outcome =
      (s.selectedProfile.map fun profile =>
        s.draft profile s.selectedFixes (file.toList.map .path)).mapError .value := by
  rw [Draft.outcome_ofTable, readableProfile?_of_inSections h]
  cases s.selectedProfile with
  | error fault => rfl
  | ok profile => exact congrArg Except.ok (ofSettings_of_inSections h file profile)

-- An empty list gives no argument at all, while a section with one sets no fixes.
theorem fixesAfter_of_lookup {args : Table}
    (h : args.lookup Key.fixes = s.fixes.map fun tokens => .list (tokens.map .text)) :
    ∃ fixes, Draft.fixesAfter args none = .ok fixes ∧
      fixes.getD .empty = s.selectedFixes.getD .empty := by
  rw [Draft.fixesAfter, Table.valueOf, h, selectedFixes]
  cases s.fixes with
  | none => exact ⟨none, rfl, rfl⟩
  | some tokens =>
    cases tokens with
    | nil => exact ⟨none, rfl, rfl⟩
    | cons token tokens =>
      have hwritable : Value.areWritable ((token :: tokens).map .text) = true :=
        Value.areWritable_map (fun _ => rfl) _
      refine ⟨_, if_pos hwritable, ?_⟩
      change FixSet.empty.union (Draft.addedFixes ((token :: tokens).map .text)) = _
      rw [Draft.addedFixes_texts, FixSet.union_ofFixes rfl, Option.map_some, Option.getD_some,
        FixSet.ofFixes]
      congr 1

theorem profileAfter_of_lookup {args : Table}
    (h : args.lookup Key.profile = s.profile.map ProfileToken.value) :
    Draft.profileAfter args .null =
      (s.selectedProfile.map (Value.ofOption .profile)).mapError .value := by
  rw [Draft.profileAfter, Table.valueOf, h, selectedProfile]
  cases s.profile with
  | none => rfl
  | some token =>
    have htoken : token.value.isNull = false := by cases token <;> rfl
    simp only [Option.map_some, Option.getD_some, htoken, Bool.false_eq_true, ↓reduceIte,
      Profile.outcome_ofToken]
    cases Profile.chosen token.value with
    | error fault => rfl
    | ok profile => rfl

theorem lineEndingAfter_of_lookup {args : Table}
    (h : args.lookup Key.lineEnding = s.lineEnding.map .text) :
    Draft.lineEndingAfter args .null =
      Value.ofOption (fun e => .text e.newline) s.selectedLineEnding := by
  rw [Draft.lineEndingAfter, Table.valueOf, h, selectedLineEnding]
  cases s.lineEnding with
  | none => rfl
  | some token => rfl

theorem patched_of_inArguments {args : Table} (h : s.InArguments args) (profile : Option Profile)
    (fixes : Option FixSet) :
    Draft.patched {} args (Value.ofOption .profile profile) fixes =
      s.draft profile fixes [Draft.argumentLayer] := by
  have horElse {α : Type} (wrap : α → Value) (a? : Option α)
      (hwrap : ∀ a, (wrap a).isNull = false) :
      (Value.ofOption wrap a?).orElse .null = Value.ofOption wrap a? := by
    cases a? with
    | none => rfl
    | some a => exact Value.orElse_of_not_isNull (hwrap a) _
  obtain ⟨-, hindent, hpageWidth, hlineEnding, hinsertSpaces, -⟩ := lookup_formatting h.formatting
  obtain ⟨hblock, hcascade, hexpression, hinitializer⟩ := lookup_widthArguments h.widths
  have hwidths : Widths.Draft.merge {} (Draft.widthArguments args) =
      (s.draft profile fixes []).widths := by
    rw [Draft.widthArguments, Table.valueOf_of_lookup hblock, Table.valueOf_of_lookup hcascade,
      Table.valueOf_of_lookup hexpression, Table.valueOf_of_lookup hinitializer]
    simp only [Widths.Draft.merge, horElse Value.int _ fun _ => rfl]
    rfl
  rw [Draft.patched, lineEndingAfter_of_lookup hlineEnding, hwidths,
    Table.valueOf_of_lookup hindent, Table.valueOf_of_lookup hpageWidth,
    Table.valueOf_of_lookup hinsertSpaces, horElse Value.int _ fun _ => rfl,
    horElse Value.int _ fun _ => rfl, horElse Value.bool _ fun _ => rfl]
  rfl

theorem outcome_applyArguments {args : Table} (h : s.InArguments args) :
    ∃ fixes, fixes.getD .empty = s.selectedFixes.getD .empty ∧
      (({} : Draft).applyArguments args).outcome =
        (s.selectedProfile.map fun profile =>
          s.draft profile fixes [Draft.argumentLayer]).mapError .value := by
  obtain ⟨hprofile, -, -, -, -, hfixes⟩ := lookup_formatting h.formatting
  obtain ⟨fixes, hafter, hget⟩ := fixesAfter_of_lookup hfixes
  refine ⟨fixes, hget, ?_⟩
  rw [Draft.outcome_applyArguments, profileAfter_of_lookup hprofile, hafter]
  cases s.selectedProfile with
  | error fault => rfl
  | ok profile => exact congrArg Except.ok (patched_of_inArguments h profile fixes)

theorem freeze_draft (s : Assignment) (profile : Option Profile) {fixes fixes' : Option FixSet}
    (h : fixes.getD .empty = fixes'.getD .empty) (sources sources' : List Value) :
    (s.draft profile fixes sources).freeze.outcome =
      (s.draft profile fixes' sources').freeze.outcome := by
  rw [Draft.outcome_freeze, Draft.outcome_freeze]
  simp only [draft, h]
  rfl

/-- Settings come to the same options, or fail in the same way, whether a config file or arguments
give them. -/
theorem sections_freeze_as_arguments (s : Assignment) (t args : Table) (file : Option String)
    (ht : s.InSections t) (hargs : s.InArguments args) :
    (Draft.ofTable t file >>= Draft.freeze).outcome =
      (({} : Draft).applyArguments args >>= Draft.freeze).outcome := by
  obtain ⟨fixes, hfixes, happly⟩ := outcome_applyArguments hargs
  rw [Report.outcome_bind, Report.outcome_bind, outcome_ofTable ht, happly]
  cases s.selectedProfile with
  | error fault => rfl
  | ok profile => exact freeze_draft s profile hfixes.symm _ _

def partialAssignment : Assignment where
  profile := some (.code 1)
  indent := some 0
  lineEnding := some "crlf"
  insertSpaces := some false
  fixes := some ["doc comments", "unknown"]
  cascade := some 6

def partialOptions : Options :=
  { Options.default with
    lineEnding := some ⟨.crlf, false⟩
    fixes := .ofFixes [.docComments]
    widths := { cascade := 6 }
    insertSpaces := false
    style := .expanded }

def negativeAssignment : Assignment :=
  { partialAssignment with cascade := some (-1) }

theorem sections_freeze_as_arguments_partial :
    ((Draft.ofTable partialAssignment.sections none >>= Draft.freeze).outcome = .ok partialOptions ∧
      (({} : Draft).applyArguments partialAssignment.arguments >>= Draft.freeze).outcome =
        .ok partialOptions) ∧
    ((Draft.ofTable negativeAssignment.sections none >>= Draft.freeze).outcome =
        .error (.option (.negative Key.cascade (-1))) ∧
      (({} : Draft).applyArguments negativeAssignment.arguments >>= Draft.freeze).outcome =
        .error (.option (.negative Key.cascade (-1)))) ∧
    (OptionFault.negative Key.cascade (-1)).message = "'cascade' must not be negative, got -1" := by
  have agree (s : Assignment) := sections_freeze_as_arguments s _ _ none s.inSections_sections
    s.inArguments_arguments
  have hvalid : (Draft.ofTable partialAssignment.sections none >>= Draft.freeze).outcome =
      .ok partialOptions := by
    rw [Report.outcome_bind, outcome_ofTable (inSections_sections _)]
    change (partialAssignment.draft (some .expanded) partialAssignment.selectedFixes []).freeze.outcome = _
    have hline : partialAssignment.selectedLineEnding = some .crlf := LineEnding.selected?_token .crlf
    have htokens : ["doc comments", "unknown"].filterMap Fix.parse? = [.docComments] := by
      decide +kernel
    refine Draft.freeze_eq_ok_iff.mpr ⟨⟨_, rfl, rfl⟩, ⟨_, rfl⟩, rfl, rfl, rfl, ?_, rfl, ?_⟩
    · rw [draft, hline]
      exact Options.checkLineEnding_newline (some .crlf)
    · exact congrArg FixSet.ofFixes htokens
  have hnegative : (Draft.ofTable negativeAssignment.sections none >>= Draft.freeze).outcome =
      .error (.option (.negative Key.cascade (-1))) := by
    rw [Report.outcome_bind, outcome_ofTable (inSections_sections _)]
    change (negativeAssignment.draft (some .expanded) negativeAssignment.selectedFixes []).freeze.outcome =
      _
    have hwidths : (negativeAssignment.draft (some .expanded) negativeAssignment.selectedFixes
        []).widths.freeze = .error (.option (.negative Key.cascade (-1))) := by
      change Widths.ofValues (.int 2) (.int (.negSucc 0)) (.int 4) (.int 4) = _
      rw [Widths.ofValues, checkWidth_minusOne]
      rfl
    rw [Draft.outcome_freeze, hwidths]
    rfl
  refine ⟨⟨hvalid, ?_⟩, ⟨hnegative, ?_⟩, by decide +kernel⟩
  · rw [← agree]
    exact hvalid
  · rw [← agree]
    exact hnegative

end Assignment

end FormatSettings
