import FormatSettings.Proofs.Config.Documents
import FormatSettings.Proofs.Config.Layering
import FormatSettings.Proofs.Config.Nearest
import FormatSettings.Proofs.Text.Unreadable

namespace FormatSettings.Config

theorem failsOnly_ofTable (t : Table) (file : Option String) :
    FailsOnly (¬ ·.IsRefusal) (Draft.ofTable t file).outcome := by
  rw [Draft.outcome_ofTable, Table.readableProfile?]
  cases (t.tableAt Key.formatting).profileAt? with
  | error fault =>
    refine .error ?_
    rintro ⟨⟩
  | ok profile =>
    cases (t.tableAt Key.formatting).hasReadableFixes with
    | true => exact .ok _
    | false =>
      refine .error ?_
      rintro ⟨⟩

section Host

variable [Host]

theorem failsOnly_resolve (d : Disk) (p : Path) : FailsOnly (¬ ·.IsRefusal) (d.resolve p) := by
  unfold Disk.resolve
  simp only
  split
  · exact .error nofun
  · exact .ok _

theorem failsOnly_tableOf (cs : List Char) : FailsOnly (¬ ·.IsRefusal) (tableOf cs) := by
  rcases tableOf_cases cs with ⟨-, h⟩ | ⟨-, error, h⟩
  · rw [h]
    exact .ok _
  · rw [h]
    exact .error nofun

theorem failsOnly_load (d : Disk) (p : Path) : FailsOnly (¬ ·.IsRefusal) (load d p).outcome := by
  cases hn : p.hasNull with
  | true =>
    rw [load_of_null hn]
    exact .error nofun
  | false =>
    cases hread : d.read p with
    | error fault =>
      rw [load_of_fault hn hread]
      exact .ok _
    | ok bytes =>
      rw [outcome_load_of_read hn hread]
      cases decodeText? bytes with
      | none => exact .error nofun
      | some cs => exact failsOnly_tableOf cs

theorem failsOnly_startDirectory (d : Disk) (place : List String) :
    FailsOnly (¬ ·.IsRefusal) (startDirectory d place) := by
  rcases startDirectory_cases d place with ⟨-, f, -, h, hrefusal⟩ | ⟨-, h⟩
  · rw [h]
    exact .error hrefusal
  · rw [h]
    exact .ok _

theorem failsOnly_discover (d : Disk) (start : Path) :
    FailsOnly (¬ ·.IsRefusal) (discover d start).outcome := by
  cases hn : start.hasNull with
  | true =>
    rw [discover, hn]
    exact .error (by rintro ⟨⟩)
  | false =>
    rw [outcome_discover hn]
    refine .bind (failsOnly_resolve d start) fun place _ => ?_
    refine .bind (failsOnly_startDirectory d place) fun directory _ => ?_
    intro f hf
    obtain ⟨i, -, hi⟩ := firstIn_eq_error hf
    exact failsOnly_fileIn d _ f hi

theorem failsOnly_loadDraft (d : Disk) (p : Path) :
    FailsOnly (¬ ·.IsRefusal) (loadDraft d p).outcome := by
  rw [outcome_loadDraft]
  refine .bind (failsOnly_load d p) fun t _ => ?_
  cases settings? p t with
  | none => exact .ok _
  | some s => exact .bind (failsOnly_ofTable s _) fun _ _ => .ok _

theorem failsOnly_loadAll (d : Disk) (files : List Path) :
    FailsOnly (¬ ·.IsRefusal) (loadAll d files).outcome := by
  induction files with
  | nil => exact .ok _
  | cons p rest ih =>
    unfold loadAll
    rw [Report.outcome_bind]
    refine .bind (failsOnly_loadDraft d p) fun layer _ => ?_
    rw [Report.outcome_bind]
    exact .bind ih fun layers _ => .ok _

theorem outcome_loadMerged (d : Disk) (start : Path) (noDiscovery : Bool) (extra : List Path) :
    (loadMerged d start noDiscovery extra).outcome = (do
      let found ← nearest d start noDiscovery
      let lower ← (loadAll d found.toList).outcome
      let upper ← (loadAll d extra).outcome
      return mergeAll (lower ++ upper)) := by
  cases noDiscovery with
  | true =>
    simp only [loadMerged, nearest, ↓reduceIte, Report.outcome_bind]
    rfl
  | false =>
    simp only [loadMerged, discoveredLayers, nearest, Bool.false_eq_true, ↓reduceIte,
      Report.outcome_bind]
    cases (discover d start).outcome with
    | error f => rfl
    | ok found => cases found <;> rfl

theorem failsOnly_nearest (d : Disk) (start : Path) (noDiscovery : Bool) :
    FailsOnly (¬ ·.IsRefusal) (nearest d start noDiscovery) := by
  cases noDiscovery with
  | true => exact .ok _
  | false => exact failsOnly_discover d start

theorem failsOnly_loadMerged (d : Disk) (start : Path) (noDiscovery : Bool) (extra : List Path) :
    FailsOnly (¬ ·.IsRefusal) (loadMerged d start noDiscovery extra).outcome := by
  rw [outcome_loadMerged]
  refine .bind (failsOnly_nearest d start noDiscovery) fun found _ => ?_
  refine .bind (failsOnly_loadAll d _) fun lower _ => ?_
  exact .bind (failsOnly_loadAll d extra) fun upper _ => .ok _

end Host

end FormatSettings.Config
