import FormatSettings.Config.Layers
import FormatSettings.Proofs.Config.Documents
import FormatSettings.Proofs.Config.Nearest
import Mathlib.Data.List.Forall2

namespace FormatSettings

variable {α : Type} {wrap : α → Value}

theorem Value.ofOption_or (hwrap : ∀ a, (wrap a).isNull = false) (first second : Option α) :
    ofOption wrap (first.or second) = (ofOption wrap first).orElse (ofOption wrap second) := by
  cases first with
  | none => rfl
  | some a => exact (orElse_of_not_isNull (hwrap a) _).symm

theorem Value.ofOption_orElse (hwrap : ∀ a, (wrap a).isNull = false) (a? : Option α) (a : α) :
    (ofOption wrap a?).orElse (wrap a) = wrap (a?.getD a) := by
  cases a? with
  | none => rfl
  | some b => exact orElse_of_not_isNull (hwrap b) _

def lastOf (layers : List Table) (read : Table → Option α) : Option α :=
  layers.reverse.findSome? read

theorem lastOf_append (lower upper : List Table) (read : Table → Option α) :
    lastOf (lower ++ upper) read = (lastOf upper read).or (lastOf lower read) := by
  rw [lastOf, List.reverse_append, List.findSome?_append]
  rfl

theorem lastOf_singleton (t : Table) (read : Table → Option α) : lastOf [t] read = read t := by
  simp [lastOf]

namespace Config

def profileIn? (t : Table) : Option Profile :=
  match (t.tableAt Key.formatting).profileAt? with
  | .ok profile => profile
  | .error _ => none

def intIn? (name key : String) (t : Table) : Option Int :=
  (t.tableAt name).intAt? key

def flagIn? (name key : String) (t : Table) : Option Bool :=
  (t.tableAt name).flagAt? key

def lineEndingIn? (t : Table) : Option LineEnding :=
  (t.tableAt Key.formatting).lineEndingAt?

def fixesIn? (t : Table) : Option FixSet :=
  (t.tableAt Key.formatting).fixesAt?

/-- The draft that holds each setting of the last layer which has it. -/
def lastDraft (layers : List Table) (sources : List Value) : Draft :=
  let int (name key : String) : Value := Value.ofOption .int (lastOf layers (intIn? name key))
  let flag (name key : String) : Value := Value.ofOption .bool (lastOf layers (flagIn? name key))
  { profile := Value.ofOption .profile (lastOf layers profileIn?)
    indent := int Key.formatting Key.indent
    pageWidth := int Key.formatting Key.pageWidth
    lineEnding := Value.ofOption (fun e => .text e.newline) (lastOf layers lineEndingIn?)
    insertSpaces := flag Key.formatting Key.insertSpaces
    fixes := lastOf layers fixesIn?
    widths :=
      { block := int Key.indent Key.block
        cascade := int Key.indent Key.cascade
        expression := int Key.indent Key.expression
        constructorInitializer := int Key.indent Key.constructorInitializer }
    style :=
      { bracesOnBlockLike := flag Key.style Key.bracesOnBlockLike
        bracesOnCollectionLiterals := flag Key.style Key.bracesOnCollectionLiterals
        bracesOnEnum := flag Key.style Key.bracesOnEnum
        tryClauseOnNewline := flag Key.style Key.tryClauseOnNewline
        ifElseOnNewline := flag Key.style Key.ifElseOnNewline }
    sources := sources }

theorem merge_lastDraft (lower upper : List Table) (below above : List Value) :
    (lastDraft lower below).merge (lastDraft upper above) =
      lastDraft (lower ++ upper) (below ++ above) := by
  have int (i : Int) : (Value.int i).isNull = false := rfl
  have flag (b : Bool) : (Value.bool b).isNull = false := rfl
  have profile (p : Profile) : (Value.profile p).isNull = false := rfl
  have newline (e : LineEnding) : (Value.text e.newline).isNull = false := rfl
  simp only [lastDraft, Draft.merge, Widths.Draft.merge, Style.Draft.merge, lastOf_append,
    Value.ofOption_or int, Value.ofOption_or flag, Value.ofOption_or profile,
    Value.ofOption_or newline]

def Reads (t : Table) (d : Draft) : Prop :=
  ∃ file, (Draft.ofTable t file).outcome = .ok d

theorem Reads.eq_lastDraft {t : Table} {d : Draft} (h : Reads t d) :
    d = lastDraft [t] d.sources := by
  obtain ⟨file, h⟩ := h
  rw [Draft.outcome_ofTable] at h
  cases hp : (t.tableAt Key.formatting).readableProfile? with
  | error fault =>
    rw [hp] at h
    cases h
  | ok profile =>
    rw [hp] at h
    cases h
    simp only [lastDraft, lastOf_singleton, profileIn?, (Table.readableProfile?_eq_ok_iff.mp hp).1]
    rfl

theorem foldl_merge_lastDraft {layers : List Table} {drafts : List Draft}
    (h : List.Forall₂ Reads layers drafts) (below : List Table) (sources : List Value) :
    ∃ all, drafts.foldl Draft.merge (lastDraft below sources) = lastDraft (below ++ layers) all := by
  induction h generalizing below sources with
  | nil => exact ⟨sources, by rw [List.append_nil, List.foldl_nil]⟩
  | @cons t d layers drafts hd _ ih =>
    obtain ⟨all, hall⟩ := ih (below ++ [t]) (sources ++ d.sources)
    refine ⟨all, ?_⟩
    rw [List.foldl_cons, hd.eq_lastDraft, merge_lastDraft, hall, List.append_assoc,
      List.singleton_append]

theorem mergeAll_eq_lastDraft {layers : List Table} {drafts : List Draft}
    (h : List.Forall₂ Reads layers drafts) : ∃ sources, mergeAll drafts = lastDraft layers sources :=
  foldl_merge_lastDraft h [] []

section Host

variable [Host]

def layerAt? (d : Disk) (p : Path) : Option Table :=
  settings? p ((document? d p).getD [])

def layersOf (d : Disk) (files : List Path) : List Table :=
  files.filterMap (layerAt? d)

/-- The files that settings are read from: the nearest config file, unless discovery is off, and then the
further ones. -/
def AreFiles (d : Disk) (start : Path) (noDiscovery : Bool) (extra files : List Path) : Prop :=
  ∃ found : Option Path, (if noDiscovery then found = none else IsNearest d start found) ∧
    files = found.toList ++ extra

theorem load_eq_ok {d : Disk} {p : Path} {t : Table} (h : (load d p).outcome = .ok t) :
    t = (document? d p).getD [] := by
  cases hn : p.hasNull with
  | true =>
    rw [load_of_null hn] at h
    cases h
  | false =>
    cases hread : d.read p with
    | error fault =>
      rw [load_of_fault hn hread] at h
      cases h
      rw [document?, hread]
      rfl
    | ok bytes =>
      rw [outcome_load_of_read hn hread] at h
      cases hcs : decodeText? bytes with
      | none =>
        rw [hcs] at h
        cases h
      | some cs =>
        rw [hcs] at h
        rcases tableOf_cases cs with ⟨-, htable⟩ | ⟨-, error, hfails⟩
        · rw [document?_of_text hread hcs]
          exact Except.ok.inj (h.symm.trans htable)
        · cases hfails.symm.trans h

theorem loadDraft_eq_ok {d : Disk} {p : Path} {draft? : Option Draft}
    (h : (loadDraft d p).outcome = .ok draft?) :
    List.Forall₂ Reads (layerAt? d p).toList draft?.toList := by
  rw [outcome_loadDraft] at h
  obtain ⟨t, ht, h⟩ := Except.bind_eq_ok.mp h
  rw [layerAt?, ← load_eq_ok ht]
  cases hs : settings? p t with
  | none =>
    rw [hs] at h
    cases h
    exact .nil
  | some own =>
    rw [hs] at h
    obtain ⟨draft, hdraft, h⟩ := Except.bind_eq_ok.mp h
    cases h
    exact .cons ⟨_, hdraft⟩ .nil

theorem layersOf_cons (d : Disk) (p : Path) (rest : List Path) :
    layersOf d (p :: rest) = (layerAt? d p).toList ++ layersOf d rest := by
  rw [layersOf, List.filterMap_cons]
  cases layerAt? d p <;> rfl

theorem loadAll_eq_ok {d : Disk} {files : List Path} {drafts : List Draft}
    (h : (loadAll d files).outcome = .ok drafts) : List.Forall₂ Reads (layersOf d files) drafts := by
  induction files generalizing drafts with
  | nil =>
    cases h
    exact .nil
  | cons p rest ih =>
    obtain ⟨draft?, hdraft, h⟩ := Report.bind_outcome_eq_ok.mp h
    obtain ⟨more, hmore, h⟩ := Report.bind_outcome_eq_ok.mp h
    cases h
    rw [layersOf_cons]
    exact List.rel_append (loadDraft_eq_ok hdraft) (ih hmore)

def nearest (d : Disk) (start : Path) (noDiscovery : Bool) : Except Failure (Option Path) :=
  if noDiscovery then .ok none else (discover d start).outcome

theorem areFiles_of_nearest {d : Disk} {start : Path} {noDiscovery : Bool} {found : Option Path}
    (h : nearest d start noDiscovery = .ok found) (extra : List Path) :
    AreFiles d start noDiscovery extra (found.toList ++ extra) := by
  refine ⟨found, ?_, rfl⟩
  cases noDiscovery with
  | true => exact (Except.ok.inj h).symm
  | false => exact isNearest_of_discover h

theorem AreFiles.unique {d : Disk} {start : Path} {noDiscovery : Bool} {extra files others : List Path}
    (h : AreFiles d start noDiscovery extra files) (hother : AreFiles d start noDiscovery extra others) :
    files = others := by
  obtain ⟨found, hfound, rfl⟩ := h
  obtain ⟨other, hother, rfl⟩ := hother
  cases noDiscovery with
  | true => rw [show found = none from hfound, show other = none from hother]
  | false => rw [IsNearest.unique hfound hother]

theorem loadMerged_parts {d : Disk} {start : Path} {noDiscovery : Bool} {extra : List Path}
    {merged : Draft} (h : (loadMerged d start noDiscovery extra).outcome = .ok merged) :
    ∃ file? found more, nearest d start noDiscovery = .ok file? ∧
      (loadAll d file?.toList).outcome = .ok found ∧ (loadAll d extra).outcome = .ok more ∧
      merged = mergeAll (found ++ more) := by
  cases noDiscovery with
  | true =>
    obtain ⟨found, hfound, h⟩ := Report.bind_outcome_eq_ok.mp h
    obtain ⟨more, hmore, h⟩ := Report.bind_outcome_eq_ok.mp h
    cases h
    exact ⟨none, found, more, rfl, hfound, hmore, rfl⟩
  | false =>
    obtain ⟨found, hfound, h⟩ := Report.bind_outcome_eq_ok.mp h
    obtain ⟨more, hmore, h⟩ := Report.bind_outcome_eq_ok.mp h
    obtain ⟨file?, hfile, hfound⟩ := Report.bind_outcome_eq_ok.mp hfound
    cases h
    refine ⟨file?, found, more, hfile, ?_, hmore, rfl⟩
    cases file? with
    | none => exact hfound
    | some p => exact hfound

theorem loadMerged_eq_ok {d : Disk} {start : Path} {noDiscovery : Bool} {extra : List Path}
    {merged : Draft} (h : (loadMerged d start noDiscovery extra).outcome = .ok merged) :
    ∃ files sources, AreFiles d start noDiscovery extra files ∧
      merged = lastDraft (layersOf d files) sources := by
  obtain ⟨file?, found, more, hfile, hfound, hmore, rfl⟩ := loadMerged_parts h
  obtain ⟨sources, hmerge⟩ :=
    mergeAll_eq_lastDraft (List.rel_append (loadAll_eq_ok hfound) (loadAll_eq_ok hmore))
  refine ⟨_, sources, areFiles_of_nearest hfile extra, ?_⟩
  rw [hmerge, layersOf, layersOf, layersOf, List.filterMap_append]

end Host

end Config

end FormatSettings
