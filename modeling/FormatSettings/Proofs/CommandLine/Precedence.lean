import FormatSettings.Proofs.CommandLine.Requests
import FormatSettings.Proofs.Config.Layering
import FormatSettings.Proofs.Draft.Freezing
import FormatSettings.Proofs.FixSet
import FormatSettings.Proofs.Options.Exported

namespace FormatSettings

theorem Value.orElse_orElse {α : Type} {wrap : α → Value} (hwrap : ∀ a, (wrap a).isNull = false)
    (first second : Option α) (a : α) :
    ((ofOption wrap first).orElse (ofOption wrap second)).orElse (wrap a) =
      wrap ((first.or second).getD a) := by
  rw [← ofOption_or hwrap, ofOption_orElse hwrap]

theorem Config.others_lastOf_fixesIn? (layers : List Table) :
    ((lastOf layers fixesIn?).getD .empty).others = [] := by
  cases h : lastOf layers fixesIn? with
  | none => rfl
  | some s =>
    obtain ⟨t, _, ht⟩ := List.exists_of_findSome?_eq_some h
    rw [fixesIn?, Table.fixesAt?] at ht
    split at ht
    · cases ht
      rfl
    · cases ht

namespace CommandLine.Given

open Config

variable (g : Given) (layers : List Table)

def integerOver (o : ConfigOption) (name key : String) (missing : Nat) : Value :=
  .int (((g.integer? o).or (lastOf layers (intIn? name key))).getD missing)

def insertSpacesOver : Bool :=
  (g.insertSpaces?.or (lastOf layers (flagIn? Key.formatting Key.insertSpaces))).getD
    Options.default.insertSpaces

def lineEndingOver : Option LineEnding :=
  g.lineEnding?.or (lastOf layers lineEndingIn?)

def profileOver : Option Profile :=
  g.profile?.or (lastOf layers profileIn?)

def fixesOver : List Fix :=
  Fix.all.filter fun f => ((lastOf layers fixesIn?).getD .empty).has f || g.fixes.contains f

def formattingOver : Table :=
  [(Key.indent, g.integerOver layers .indent Key.formatting Key.indent Options.default.indent),
   (Key.pageWidth,
    g.integerOver layers .pageWidth Key.formatting Key.pageWidth Options.default.pageWidth),
   (Key.insertSpaces, .bool (g.insertSpacesOver layers)),
   (Key.fixes, .list ((g.fixesOver layers).map fun f => .text f.key))] ++
    (g.lineEndingOver layers).toList.map fun e => (Key.lineEnding, .text e.token)

def widthsOver : Table :=
  let width (o : ConfigOption) (key : String) (missing : Nat) : String × Value :=
    (key, g.integerOver layers o Key.indent key missing)
  [width .blockIndent Key.block Widths.default.block,
   width .cascadeIndent Key.cascade Widths.default.cascade,
   width .expressionIndent Key.expression Widths.default.expression,
   width .constructorInitializerIndent Key.constructorInitializer
     Widths.default.constructorInitializer]

def styleFlagsOver (base : Style) : Table :=
  let flag (key : String) (missing : Bool) : String × Value :=
    (key, .bool ((lastOf layers (flagIn? Key.style key)).getD missing))
  [flag Key.bracesOnBlockLike base.bracesOnBlockLike,
   flag Key.bracesOnCollectionLiterals base.bracesOnCollectionLiterals,
   flag Key.bracesOnEnum base.bracesOnEnum, flag Key.tryClauseOnNewline base.tryClauseOnNewline,
   flag Key.ifElseOnNewline base.ifElseOnNewline]

def styleOver : Table :=
  styleFlagsOver layers (Style.under (g.profileOver layers))

/-- The settings of options over layers. -/
def settingsOver : Table :=
  [(Key.formatting, .table (g.formattingOver layers)), (Key.indent, .table (g.widthsOver layers)),
   (Key.style, .table (g.styleOver layers))]

variable {g layers} {sources : List Value} {d : Draft} {o : Options}

theorem profileAfter_arguments {profile : Value}
    (h : Draft.profileAfter g.arguments (lastDraft layers sources).profile = .ok profile) :
    profile = Value.ofOption .profile (g.profileOver layers) := by
  have hvalue : g.arguments.valueOf Key.profile = Value.ofOption .profile g.profile? :=
    valueOf_arguments (o := .profile) rfl
  rw [Draft.profileAfter, hvalue] at h
  rw [profileOver]
  cases hp : g.profile? with
  | none =>
    rw [hp] at h
    cases h
    rfl
  | some p =>
    rw [hp] at h
    cases h
    rfl

theorem fixesAfter_arguments {fixes : Option FixSet}
    (h : Draft.fixesAfter g.arguments (lastDraft layers sources).fixes = .ok fixes) :
    (fixes.getD .empty).fixes = g.fixesOver layers ∧ (fixes.getD .empty).others = [] := by
  have hothers := others_lastOf_fixesIn? layers
  have hvalue : g.arguments.valueOf Key.fixes = .list (g.fixes.map .fix) :=
    valueOf_arguments (o := .fix) rfl
  have hlast : (lastDraft layers sources).fixes = lastOf layers fixesIn? := rfl
  rw [Draft.fixesAfter, hvalue, hlast] at h
  rw [fixesOver]
  by_cases hempty : g.fixes = []
  · rw [hempty] at h ⊢
    cases h
    refine ⟨?_, hothers⟩
    simp only [List.contains_nil, Bool.or_false]
    rfl
  · have hholds : (Value.list (g.fixes.map .fix)).holds = true := by simp [Value.holds, hempty]
    have hwritable : Value.areWritable (g.fixes.map .fix) = true :=
      Value.areWritable_map (fun _ => rfl) _
    simp only [if_pos hholds, Value.elements?, if_pos hwritable] at h
    cases h
    rw [Option.getD_some, Draft.addedFixes_fixes, FixSet.union_ofFixes hothers]
    exact ⟨rfl, rfl⟩

theorem lineEndingAfter_arguments :
    Draft.lineEndingAfter g.arguments (lastDraft layers sources).lineEnding =
      Value.ofOption (fun e => .text e.newline) (g.lineEndingOver layers) := by
  have hvalue : g.arguments.valueOf Key.lineEnding =
      Value.ofOption (fun e => .text e.token) g.lineEnding? :=
    valueOf_arguments (o := .lineEnding) rfl
  rw [Draft.lineEndingAfter, hvalue, lineEndingOver]
  cases g.lineEnding? with
  | none => rfl
  | some e => exact congrArg (Value.ofOption _) e.selected?_token

theorem widths_patched {profile : Value} {fixes : Option FixSet} :
    (Widths.default.thaw.merge
        ((lastDraft layers sources).patched g.arguments profile fixes).widths).toTable =
      g.widthsOver layers := by
  have int (i : Int) : (Value.int i).isNull = false := rfl
  have block := valueOf_arguments (g := g) (o := .blockIndent) rfl
  have cascade := valueOf_arguments (g := g) (o := .cascadeIndent) rfl
  have expression := valueOf_arguments (g := g) (o := .expressionIndent) rfl
  have initializer := valueOf_arguments (g := g) (o := .constructorInitializerIndent) rfl
  simp only [Draft.patched, Draft.widthArguments, lastDraft, Widths.Draft.merge,
    Widths.Draft.toTable, Widths.thaw, block, cascade, expression, initializer, argument,
    Value.orElse_orElse int]
  rfl

theorem style_lastDraft (base : Style) :
    (base.thaw.merge (lastDraft layers sources).style).toTable = styleFlagsOver layers base := by
  have flag (b : Bool) : (Value.bool b).isNull = false := rfl
  simp only [lastDraft, Style.Draft.merge, Style.Draft.toTable, Style.thaw, styleFlagsOver,
    Value.ofOption_orElse flag]

theorem indent_patched {profile : Value} {fixes : Option FixSet} :
    (((lastDraft layers sources).patched g.arguments profile fixes).indent).orElse
        (.int Options.default.indent) =
      g.integerOver layers .indent Key.formatting Key.indent Options.default.indent := by
  have hvalue := valueOf_arguments (g := g) (o := .indent) rfl
  rw [Draft.patched, hvalue]
  exact Value.orElse_orElse (fun _ => rfl) _ _ _

theorem pageWidth_patched {profile : Value} {fixes : Option FixSet} :
    (((lastDraft layers sources).patched g.arguments profile fixes).pageWidth).orElse
        (.int Options.default.pageWidth) =
      g.integerOver layers .pageWidth Key.formatting Key.pageWidth Options.default.pageWidth := by
  have hvalue := valueOf_arguments (g := g) (o := .pageWidth) rfl
  rw [Draft.patched, hvalue]
  exact Value.orElse_orElse (fun _ => rfl) _ _ _

theorem insertSpaces_patched {profile : Value} {fixes : Option FixSet} :
    (((lastDraft layers sources).patched g.arguments profile fixes).insertSpaces).orElse
        (.bool Options.default.insertSpaces) = .bool (g.insertSpacesOver layers) := by
  have hvalue := valueOf_arguments (g := g) (o := .spaces) rfl
  rw [Draft.patched, hvalue]
  exact Value.orElse_orElse (fun _ => rfl) _ _ _

theorem toTable_of_freeze
    (hd : ((lastDraft layers sources).applyArguments g.arguments).outcome = .ok d)
    (ho : d.freeze.outcome = .ok o) :
    o.toTable = .ok (g.settingsOver layers) ∧ o.fixes.others = [] := by
  obtain ⟨profile, fixes, hprofile, hfixes, rfl⟩ := Draft.applyArguments_eq_ok hd
  obtain ⟨⟨base, hbase, hstyle⟩, -, hwidths, hindent, hpage, hline, hspaces, hfixSet⟩ :=
    Draft.freeze_eq_ok_iff.mp ho
  obtain ⟨hfixList, hothers⟩ := fixesAfter_arguments hfixes
  change fixes.getD .empty = o.fixes at hfixSet
  rw [hfixSet] at hfixList hothers
  -- Each part of the export follows from its own settings of the draft alone.
  have hstyleTable : o.style.toTable = g.styleOver layers := by
    cases profileAfter_arguments hprofile
    have hunder := (Draft.outcome_styleOf (g.profileOver layers)).symm.trans hbase
    cases hunder
    exact (congrArg Style.Draft.toTable hstyle).symm.trans (@style_lastDraft layers sources _)
  have hwidthsTable : o.widths.toTable = g.widthsOver layers :=
    (congrArg Widths.Draft.toTable hwidths).symm.trans widths_patched
  have hlineEnding : o.lineEnding = (g.lineEndingOver layers).map fun e => ⟨e, false⟩ := by
    rw [Draft.patched, lineEndingAfter_arguments, Options.checkLineEnding_newline] at hline
    exact (Except.ok.inj hline).symm
  have hformatting : o.formattingTable = .ok (g.formattingOver layers) := by
    rw [Options.formattingTable_of_known hothers, Options.exportedFormatting, ← hindent, ← hpage,
      ← hspaces, indent_patched, pageWidth_patched, insertSpaces_patched, hfixList, hlineEnding,
      formattingOver]
    cases g.lineEndingOver layers with
    | none => rfl
    | some e => rfl
  refine ⟨?_, hothers⟩
  rw [Options.toTable, hformatting, hwidthsTable, hstyleTable]
  rfl

end CommandLine.Given

end FormatSettings
