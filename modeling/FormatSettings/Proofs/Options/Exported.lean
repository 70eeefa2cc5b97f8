import FormatSettings.Proofs.Config.Reading

namespace FormatSettings

theorem Fix.parse?_key (f : Fix) : parse? f.key = some f := by
  cases f <;> decide +kernel

theorem Widths.widths_toTable (w : Widths) : w.toTable.widths = w.thaw := by
  simp [Table.widths, Table.intAt?, Table.valueOf, toTable, thaw, Value.ofOption, List.lookup_cons,
    Key.block, Key.cascade, Key.expression, Key.constructorInitializer]

theorem Style.style_toTable (s : Style) : s.toTable.style = s.thaw := by
  simp [Table.style, Table.flagAt?, Table.valueOf, toTable, thaw, Value.ofOption, List.lookup_cons,
    Key.bracesOnBlockLike, Key.bracesOnCollectionLiterals, Key.bracesOnEnum, Key.tryClauseOnNewline,
    Key.ifElseOnNewline]

namespace Options

def savedDraft (o : Options) (file : Option String) : Draft where
  indent := .int (.ofNat o.indent)
  pageWidth := .int (.ofNat o.pageWidth)
  lineEnding := Value.ofOption (fun n => .text n.ending.newline) o.lineEnding
  insertSpaces := .bool o.insertSpaces
  fixes := some (FixSet.ofFixes o.fixes.fixes)
  widths := o.widths.thaw
  style := o.style.thaw
  sources := file.toList.map .path

def exportedFormatting (o : Options) : Table :=
  [(Key.indent, .int (.ofNat o.indent)), (Key.pageWidth, .int (.ofNat o.pageWidth)),
   (Key.insertSpaces, .bool o.insertSpaces),
   (Key.fixes, .list (o.fixes.fixes.map fun f => .text f.key))] ++
    o.lineEnding.toList.map fun n => (Key.lineEnding, .text n.ending.token)

def exported (o : Options) : Table :=
  [(Key.formatting, .table o.exportedFormatting), (Key.indent, .table o.widths.toTable),
   (Key.style, .table o.style.toTable)]

variable {o : Options}

theorem formattingTable_of_known (h : o.fixes.others = []) :
    o.formattingTable = .ok o.exportedFormatting := by
  have hkeys : o.fixes.keys? = .ok (o.fixes.fixes.map Fix.key) := by rw [FixSet.keys?, h]
  rw [formattingTable, hkeys, exportedFormatting]
  cases o.lineEnding <;> simp [pure, Except.pure, bind, Except.bind]

theorem toTable_of_known (h : o.fixes.others = []) : o.toTable = .ok o.exported := by
  rw [toTable, formattingTable_of_known h]
  rfl

theorem lineEndingAt?_exported (o : Options) :
    o.exportedFormatting.lineEndingAt? = o.lineEnding.map Newline.ending := by
  rw [Table.lineEndingAt?, Table.valueOf, exportedFormatting]
  cases o.lineEnding with
  | none => rfl
  | some n => exact n.ending.selected?_token

theorem profileAt?_exported (o : Options) : o.exportedFormatting.profileAt? = .ok none := by
  rw [Table.profileAt?, exportedFormatting]
  cases o.lineEnding <;> rfl

theorem readableProfile?_exported (o : Options) : o.exportedFormatting.readableProfile? = .ok none := by
  have hlist : o.exportedFormatting.listAt Key.fixes = (o.fixes.fixes.map Fix.key).map .text := by
    rw [List.map_map]
    rfl
  refine Table.readableProfile?_eq_ok_iff.mpr ⟨o.profileAt?_exported, ?_⟩
  rw [Table.hasReadableFixes, hlist]
  exact Value.areWritable_map (fun _ => rfl) _

theorem filterMap_parse?_keys (fixes : List Fix) :
    (fixes.map fun f => Value.text f.key).filterMap (fun v => Fix.parse? v.tokenText) = fixes := by
  induction fixes with
  | nil => rfl
  | cons f fixes ih =>
    have hparse : Fix.parse? (Value.text f.key).tokenText = some f := f.parse?_key
    rw [List.map_cons, List.filterMap_cons, hparse, ih]

theorem fixesAt?_exported (o : Options) :
    o.exportedFormatting.fixesAt? = some (FixSet.ofFixes o.fixes.fixes) := by
  have hlookup : o.exportedFormatting.lookup Key.fixes =
      some (.list (o.fixes.fixes.map fun f => .text f.key)) := rfl
  rw [Table.fixesAt?, Table.hasKey, Table.listAt, Table.valueOf, hlookup]
  simp only [Option.isSome_some, ↓reduceIte, Option.getD_some, filterMap_parse?_keys]

theorem ofTable_exported (o : Options) (file : Option String) :
    (Draft.ofTable o.exported file).outcome = .ok (o.savedDraft file) := by
  have hformatting : o.exported.tableAt Key.formatting = o.exportedFormatting := rfl
  have hwidths : o.exported.tableAt Key.indent = o.widths.toTable := rfl
  have hstyle : o.exported.tableAt Key.style = o.style.toTable := rfl
  rw [Draft.outcome_ofTable, hformatting, readableProfile?_exported]
  change Except.ok (Draft.ofSettings o.exported file none) = _
  simp only [Draft.ofSettings, hformatting, hwidths, hstyle, lineEndingAt?_exported,
    fixesAt?_exported, Widths.widths_toTable, Style.style_toTable, savedDraft]
  cases o.lineEnding <;> rfl

end Options

end FormatSettings
