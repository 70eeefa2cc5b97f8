import FormatSettings.Constants
import FormatSettings.Proofs.Config.Discovery
import FormatSettings.Proofs.Draft.Freezing
import FormatSettings.Proofs.FixSet
import FormatSettings.Proofs.Options.Exported
import FormatSettings.Proofs.Options.Sheets
import FormatSettings.Proofs.Toml.Nesting
import FormatSettings.Proofs.Toml.Rendering

namespace FormatSettings

open Toml

namespace Options

/-- A file is loaded as a layer that freezes to the same options. -/
def ReloadsFrom (o : Options) (d : Disk) (p : Path) : Prop :=
  ∃ draft again, (Config.loadDraft d p).outcome = .ok (some draft) ∧
    draft.freeze.outcome = .ok again ∧ again.same o = true

def reread (o : Options) : Options :=
  { o with
    lineEnding := o.lineEnding.map fun n => ⟨n.ending, false⟩
    fixes := FixSet.ofFixes o.fixes.fixes }

theorem same_reread {o : Options} (h : o.fixes.others = []) : o.reread.same o = true := by
  have hline : (o.lineEnding.map fun n => (⟨n.ending, false⟩ : Newline)).map Newline.ending =
      o.lineEnding.map Newline.ending := by
    rw [Option.map_map]
    rfl
  simp [same, reread, hline, FixSet.same_ofFixes h]

theorem checkLineEnding_reread (l : Option Newline) :
    checkLineEnding (Value.ofOption (fun n => .text n.ending.newline) l) =
      .ok (l.map fun n => ⟨n.ending, false⟩) := by
  cases l with
  | none => rfl
  | some n => exact checkLineEnding_newline (some n.ending)

theorem freeze_savedDraft (o : Options) (file : Option String) :
    (o.savedDraft file).freeze.outcome = .ok o.reread := by
  rw [Draft.freeze_eq_ok_iff]
  exact ⟨⟨Style.default, rfl, rfl⟩, ⟨_, rfl⟩, rfl, rfl, rfl, checkLineEnding_reread o.lineEnding, rfl,
    rfl⟩

theorem sheetTable_sheets (o : Options) (h : o.Storable) : sheetTable (o.sheets h) = o.exported :=
  Except.ok.inj ((o.toTable_eq_sheets h).symm.trans (toTable_of_known h.others))

theorem ofTable_sheets (o : Options) (h : o.Storable) (file : Option String) :
    (Draft.ofTable (sheetTable (o.sheets h)) file).outcome = .ok (o.savedDraft file) := by
  rw [o.sheetTable_sheets h, ofTable_exported]

theorem reloadsFrom_of_load {o : Options} (h : o.Storable) {d : Disk} {p : Path} {t : Table}
    (hload : (Config.load d p).outcome = .ok t)
    (hsettings : Config.settings? p t = some (sheetTable (o.sheets h))) : o.ReloadsFrom d p :=
  ⟨_, _, Config.outcome_loadDraft_of_load hload hsettings (o.ofTable_sheets h _),
    o.freeze_savedDraft _, same_reread h.others⟩

/-- Options that can be saved are written as a text. A config file of that text gives the same
options, and so does a shared file of it nested in the table for this program, which discovery finds
in its directory. -/
theorem saved_options_reload (o : Options) (h : o.Storable) :
    ∃ text nested, (o.toTable >>= Toml.render) = .ok text ∧
      Toml.nest text sharedSection = .ok nested ∧
      (∀ d p, p.name ≠ sharedConfigName → d.isFile p = .ok true → d.read p = .ok text.toUTF8 →
        o.ReloadsFrom d p) ∧
      ∀ (d : Disk) (start : Path) (directory : List String), start.hasNull = false →
        d.resolve start = .ok directory → d.isFile (Path.ofNames directory) = .ok false →
        d.isFile (Path.ofNames (directory ++ [configName])) = .ok false →
        d.isFile (Path.ofNames (directory ++ [sharedConfigName])) = .ok true →
        d.read (Path.ofNames (directory ++ [sharedConfigName])) = .ok nested.toUTF8 →
        (Config.discover d start).outcome =
            .ok (some (Path.ofNames (directory ++ [sharedConfigName]))) ∧
          o.ReloadsFrom d (Path.ofNames (directory ++ [sharedConfigName])) := by
  let tool : Word := { text := Key.tool }
  let program : Word := { text := Key.program }
  have hnames := o.nodup_sheets h
  refine ⟨String.ofList (sheetChars (o.sheets h)),
    String.ofList (nestedChars [tool] program (o.sheets h)), ?_, ?_, ?_, ?_⟩
  · rw [o.toTable_eq_sheets h]
    exact render_sheets (o.sheets h)
  · exact nest_sheetChars (by decide +kernel) hnames
  · intro d p hname hfile hread
    have hload := Config.outcome_load_of_text hfile hread
      (by rw [String.toList_ofList]; exact fun c hc => ne_return_of_mem_rows hc)
      (by rw [String.toList_ofList, Config.parse?_plain]; exact table?_sheetChars hnames)
    apply reloadsFrom_of_load h hload
    rw [Config.settings?, if_neg (by simpa using hname)]
  · intro d start directory hn hstart hdirectory hown hshared hread
    have hload := Config.outcome_load_of_text hshared hread
      (by rw [String.toList_ofList]; exact fun c hc => ne_return_of_mem_rows hc)
      (by rw [String.toList_ofList, Config.parse?_plain]; exact table?_nestedChars [tool] program hnames)
    -- The nested document holds the same table, two keys further down.
    have hprogram : (under [tool, program] (sheetTable (o.sheets h))).tableAt Key.tool =
        under [program] (sheetTable (o.sheets h)) := by
      simp [under, Table.tableAt, Table.valueOf, tool]
    have hown' : Config.ownTable (under [tool, program] (sheetTable (o.sheets h))) =
        sheetTable (o.sheets h) := by
      rw [Config.ownTable, hprogram]
      simp [under, Table.tableAt, Table.valueOf, program]
    have hfound : Config.namesProgram (under [tool, program] (sheetTable (o.sheets h))) = true := by
      rw [Config.namesProgram, hprogram]
      simp [under, Table.hasKey, program]
    refine ⟨Config.discover_shared hn hstart hdirectory hown hshared hload hfound, ?_⟩
    apply reloadsFrom_of_load h hload
    rw [Config.settings?, Config.name_ofNames_append, if_pos (by simp), List.singleton_append, hown']
    rfl

def sample : Options :=
  { default with
    lineEnding := some ⟨.crlf, true⟩
    fixes := FixSet.ofFixes [.optionalNew]
    style := .expanded }

def oneFile (name text : String) : Disk where
  tree := ⟨[([name], .file text.toUTF8)]⟩
  here := []

theorem isFile_of_stat {d : Disk} {p : Path} {bytes : ByteArray} (hn : p.hasNull = false)
    (h : d.stat p = .ok (.file bytes)) : d.isFile p = .ok true ∧ d.read p = .ok bytes := by
  constructor
  · rw [Disk.isFile, hn, if_neg Bool.false_ne_true, h]
  · rw [Disk.read, h]

def IsFileName (name : String) : Prop :=
  name ≠ "." ∧ name ≠ ".." ∧ name.utf8ByteSize ≤ FileTree.nameLimit ∧
    (Path.mk 1 [name]).toText.utf8ByteSize < Disk.pathLimit

theorem stat_root {d : Disk} {name : String} (h : IsFileName name) :
    d.stat ⟨1, [name]⟩ = d.tree.walk FileTree.linkLimit [] [name] := by
  have hsize : ¬ Disk.pathLimit ≤ (Path.mk 1 [name]).toText.utf8ByteSize :=
    Nat.not_le_of_lt h.2.2.2
  rw [Disk.stat, Disk.statSteps, if_neg hsize]
  rfl

theorem descend_root {t : FileTree} {name : String} (h : IsFileName name) :
    t.descend [] [name] = match t.node? [name] with
      | none => .fault .missing
      | some .directory => .found .directory
      | some (.file bytes) => .found (.file bytes)
      | some (.link target) => .atLink [] target [] := by
  obtain ⟨hdot, hdots, hname, _⟩ := h
  cases hnode : t.node? [name] with
  | none => simp [FileTree.descend, hdot, hdots, Nat.not_lt_of_le hname, hnode]
  | some n =>
    cases n <;> simp [FileTree.descend, hdot, hdots, Nat.not_lt_of_le hname, hnode]

theorem stat_oneFile {name : String} (text : String) (h : IsFileName name) :
    (oneFile name text).stat ⟨1, [name]⟩ = .ok (.file text.toUTF8) := by
  have hnode : (oneFile name text).tree.node? [name] = some (.file text.toUTF8) := by
    simp [oneFile, FileTree.node?]
  rw [stat_root h, FileTree.walk, descend_root h, hnode]

theorem stat_oneFile_other {name other : String} (text : String) (hne : other ≠ name)
    (h : IsFileName other) : (oneFile name text).stat ⟨1, [other]⟩ = .error .missing := by
  have hnode : (oneFile name text).tree.node? [other] = none := by
    simp [oneFile, FileTree.node?, List.lookup_cons, beq_eq_false_iff_ne.mpr hne,
      List.isPrefixOf]
  rw [stat_root h, FileTree.walk, descend_root h, hnode]

theorem saved_sample_reloads :
    ∃ text nested, (sample.toTable >>= Toml.render) = .ok text ∧
      Toml.nest text sharedSection = .ok nested ∧
      sample.ReloadsFrom (oneFile "settings.toml" text) ⟨1, ["settings.toml"]⟩ ∧
      (Config.discover (oneFile sharedConfigName nested) ⟨1, []⟩).outcome =
          .ok (some ⟨1, [sharedConfigName]⟩) ∧
        sample.ReloadsFrom (oneFile sharedConfigName nested) ⟨1, [sharedConfigName]⟩ := by
  obtain ⟨text, nested, htext, hnested, hown, hshared⟩ :=
    saved_options_reload sample ⟨rfl, by decide +kernel⟩
  have hplain : IsFileName "settings.toml" := by
    unfold IsFileName
    decide +kernel
  have hname : IsFileName sharedConfigName := by
    unfold IsFileName
    decide +kernel
  have hother : IsFileName configName := by
    unfold IsFileName
    decide +kernel
  obtain ⟨hownFile, hownRead⟩ := isFile_of_stat (by decide +kernel) (stat_oneFile text hplain)
  obtain ⟨hsharedFile, hsharedRead⟩ :=
    isFile_of_stat (by decide +kernel) (stat_oneFile nested hname)
  have hmissing : (oneFile sharedConfigName nested).isFile ⟨1, [configName]⟩ = .ok false := by
    rw [Disk.isFile, if_neg (by decide +kernel), stat_oneFile_other nested (by decide) hother]
  refine ⟨text, nested, htext, hnested, hown _ _ (by decide +kernel) hownFile hownRead, ?_⟩
  exact hshared _ ⟨1, []⟩ [] rfl rfl rfl hmissing hsharedFile hsharedRead

end Options

end FormatSettings
