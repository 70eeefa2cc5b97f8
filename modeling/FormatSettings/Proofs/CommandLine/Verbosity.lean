import FormatSettings.Proofs.CommandLine.ExitCodes
import FormatSettings.Proofs.CommandLine.RecordDepth

namespace FormatSettings.CommandLine

section Scan

variable {ι : Type} {specs : List (Spec ι)}

theorem map_addOptions_eq_ok {scanned : Except ScanFault (Scan ι)}
    {first found : List (ι × Option String)} {operands : List String} :
    scanned.map (Scan.addOptions first) = .ok ⟨found, operands⟩ ↔
      ∃ later, scanned = .ok ⟨later, operands⟩ ∧ found = first ++ later := by
  cases scanned with
  | error fault => simp [Except.map]
  | ok s =>
    obtain ⟨later, behind⟩ := s
    simp only [Except.map, Scan.addOptions, Except.ok.injEq, Scan.mk.injEq]
    constructor
    · rintro ⟨rfl, rfl⟩
      exact ⟨later, ⟨rfl, rfl⟩, rfl⟩
    · rintro ⟨_, ⟨rfl, rfl⟩, rfl⟩
      exact ⟨rfl, rfl⟩

theorem scan_append {front rest : List String} {found : List (ι × Option String)}
    (hfront : scan specs false front = .ok ⟨found, []⟩)
    (hrest : scan specs false rest = .ok ⟨[], rest⟩) :
    scan specs false (front ++ rest) = .ok ⟨found, rest⟩ := by
  fun_induction scan specs false front generalizing found with
  | case1 =>
    cases hfront
    exact hrest
  | case2 word words hend =>
    cases hfront
    rw [List.cons_append, scan, if_pos hend, List.nil_append]
  | case3 => cases hfront
  | case4 word words hend hoption first hword ih =>
    obtain ⟨later, hlater, rfl⟩ := map_addOptions_eq_ok.mp hfront
    rw [List.cons_append, scan, if_neg hend, if_pos hoption, hword]
    exact map_addOptions_eq_ok.mpr ⟨later, ih hlater, rfl⟩
  | case5 => cases hfront
  | case6 word hend hoption option name hword value words ih =>
    obtain ⟨later, hlater, rfl⟩ := map_addOptions_eq_ok.mp hfront
    rw [List.cons_append, List.cons_append, scan, if_neg hend, if_pos hoption, hword]
    exact map_addOptions_eq_ok.mpr ⟨later, ih hlater, rfl⟩
  | case7 word words hend hoption hmixed => cases hmixed
  | case8 => cases hfront

end Scan

namespace Setting

theorem scanGroup_append {s : Setting} {front argv : List String}
    {flags : List (GroupFlag × Option String)} (h : s.scanGroup front = .ok ⟨flags, []⟩) :
    s.scanGroup (front ++ "config" :: argv) = .ok ⟨flags, "config" :: argv⟩ := by
  have hcommand : scan groupSpecs false ("config" :: argv) = .ok ⟨[], "config" :: argv⟩ := by
    rw [scan, if_neg (by decide), if_neg (by decide), if_neg (by decide)]
  unfold scanGroup at h ⊢
  split at h
  · cases h
  · next found hscan =>
    split at h
    · cases h
    · next hhelp =>
      cases h
      rw [scan_append hscan hcommand]
      exact if_neg hhelp

/-- Words before the command set a verbosity, and the level variable is unset or can be read. -/
structure SetsLevel (s : Setting) (front : List String) (flags : List (GroupFlag × Option String))
    (level : Option Nat) : Prop where
  words : s.scanGroup front = .ok ⟨flags, []⟩
  noConflict : ¬ FlagsConflict flags
  readable : Log.ofEnvironment? s.levelVariable = .ok level

end Setting

def Event.notice? : Event → Option Notice
  | .log n => some n
  | .print _ => none

/-- A run logs those of its records that are severe enough for the level of the environment, or else of
the flags; the first record tells these levels. -/
def Run.Logs (r : Run) (flags : List (GroupFlag × Option String)) (level : Option Nat)
    (records : List Notice) : Prop :=
  ∃ severity,
    Log.ofFlags (Setting.countOf flags .verbose) (Setting.countOf flags .quiet) = .ok severity ∧
    r.level = some (Setting.levelFor level severity) ∧
    r.notices = (⟨.debug, Setting.levelText level severity⟩ :: records).filter
      (·.reaches (Setting.levelFor level severity))

theorem Event.filterMap_logged? (events : List Event) (level : Nat) :
    events.filterMap (·.logged? level) = (events.filterMap notice?).filter (·.reaches level) := by
  induction events with
  | nil => rfl
  | cons e events ih =>
    cases e with
    | print text => exact ih
    | log n =>
      have hhead : (Event.log n).logged? level = if n.reaches level then some n else none := rfl
      have hrecord : notice? (.log n) = some n := rfl
      rw [List.filterMap_cons, hhead, ih, List.filterMap_cons_some hrecord, List.filter_cons]
      cases n.reaches level <;> rfl

namespace Setting

section Host

variable [Host] {s : Setting} {front argv : List String} {flags : List (GroupFlag × Option String)}
  {level : Option Nat}

theorem depth_of_mem_runConfig {k : Nat} (hdocuments : Config.DocumentsWithin s.disk k) (hk : 2 ≤ k)
    {n : Notice} (h : .log n ∈ (s.runConfig argv).events) : n.message.depth ≤ k := by
  unfold runConfig at h
  split at h
  · cases h
  · next found _ =>
    simp only at h
    split at h
    · rcases h with _ | ⟨_, ⟨⟩⟩
    · split at h
      · cases h
      · cases h
      · unfold withoutOperands at h
        split at h
        · exact showsWithin_options hdocuments hk n (mem_notices_of_mem_events h)
        · cases h

theorem run_config (h : s.SetsLevel front flags level) (argv : List String)
    (hsteady : ∀ k, ¬ BreaksOff (s.runConfig argv) k) :
    (s.run (front ++ "config" :: argv)).ending = .settled (s.runConfig argv).outcome ∧
      (s.run (front ++ "config" :: argv)).output = Event.outputOf (s.runConfig argv).events ∧
      (s.run (front ++ "config" :: argv)).Logs flags level
        ((s.runConfig argv).events.filterMap Event.notice?) := by
  have hcommand : Command.named? "config" = some .config := by decide
  obtain ⟨severity, hseverity⟩ := exists_severity h.noConflict
  have hrun : s.run (front ++ "config" :: argv) = s.atLevel flags (s.runConfig argv) := by
    unfold run
    simp only [scanGroup_append h.words, hcommand]
    rfl
  have hlevel : (s.atLevel flags (s.runConfig argv)).level = some (levelFor level severity) := by
    rw [atLevel_eq hseverity h.readable]
    rfl
  rcases s.atLevel_cases hseverity h.readable (s.runConfig argv) with ⟨hbreaks, -⟩ |
    ⟨-, hending, houtput, hnotices⟩
  · exact absurd hbreaks (hsteady _)
  · rw [hrun]
    refine ⟨hending, houtput, severity, hseverity, hlevel, ?_⟩
    rw [hnotices, Event.filterMap_logged?]
    rfl

end Host

end Setting

/-- Two runs of the command on the same words and the same disk end alike, print the same and let the same
failure out, whatever verbosity and level they are run at, if no document is nested too deeply to be
shown. What they log is told from the same records. -/
theorem verbosity_keeps_result [Host] (s t : Setting) (argv : List String) {front front' : List String}
    {flags flags' : List (GroupFlag × Option String)} {level level' : Option Nat}
    (hprogram : t.program = s.program) (hdisk : t.disk = s.disk)
    (h : s.SetsLevel front flags level) (h' : t.SetsLevel front' flags' level')
    (hroom : 2 ≤ Host.room) (hdocuments : Config.DocumentsWithin s.disk Host.room) :
    (t.run (front' ++ "config" :: argv)).ending = (s.run (front ++ "config" :: argv)).ending ∧
      (t.run (front' ++ "config" :: argv)).output = (s.run (front ++ "config" :: argv)).output ∧
      ∃ records, (s.run (front ++ "config" :: argv)).Logs flags level records ∧
        (t.run (front' ++ "config" :: argv)).Logs flags' level' records := by
  have hconfig : t.runConfig argv = s.runConfig argv := by
    obtain ⟨program, variable', disk⟩ := t
    cases hprogram
    cases hdisk
    rfl
  have hsteady : ∀ k, ¬ Setting.BreaksOff (s.runConfig argv) k := by
    rintro k ⟨e, he, hbreaks⟩
    cases e with
    | print text => cases hbreaks
    | log n =>
      have hdepth := Setting.depth_of_mem_runConfig hdocuments hroom he
      exact absurd (of_decide_eq_true (Bool.and_eq_true_iff.mp hbreaks).2) (Nat.not_lt.mpr hdepth)
  obtain ⟨hending, houtput, hlogs⟩ := Setting.run_config h argv hsteady
  obtain ⟨hending', houtput', hlogs'⟩ := Setting.run_config h' argv (hconfig ▸ hsteady)
  rw [hconfig] at hending' houtput' hlogs'
  exact ⟨hending'.trans hending.symm, houtput'.trans houtput.symm, _, hlogs, hlogs'⟩

def zeroWidthTraced : Setting :=
  { zeroWidth with levelVariable := some "5" }

theorem documentsWithin_zeroWidth : Config.DocumentsWithin zeroWidth.disk Host.room := by
  intro p t ht
  obtain ⟨bytes, hread, ht⟩ := Option.bind_eq_some_iff.mp ht
  obtain ⟨e, he, hbytes⟩ := Disk.mem_entries_of_read (Except.eq_ok_of_toOption hread)
  rw [List.mem_singleton.mp he] at hbytes
  cases hbytes
  have hdepth : ∀ t ∈ (decodeText? "[formatting]\npage_width = 0\n".toUTF8).bind Config.parse?,
      (Value.table t).depth ≤ 950 := by decide +kernel
  exact hdepth t ht

theorem prints_zeroWidth : (zeroWidth.run overridingWords).ending = .success ∧
    Prints (zeroWidth.run overridingWords).output (shownWith 0 90) := by
  have hcode : (zeroWidth.run overridingWords).ending.exitCode = ExitCode.success := by
    decide +kernel
  have hends := ne_failed_of_exitCode (e := (zeroWidth.run overridingWords).ending)
    (by rw [hcode]; decide)
  rcases Setting.run_cases zeroWidth_accepts hends with ⟨-, -, fault, hending⟩ |
    ⟨-, -, draft, hdraft, -, ⟨fault, -, -, hending⟩ | ⟨o, text, ho, htext, houtput, hending⟩⟩
  · rw [hending] at hcode
    cases hcode
  · rw [hending] at hcode
    cases hcode
  · obtain ⟨files, hfiles, hprints⟩ := Given.prints_of_freeze hdraft ho htext
    rw [layersOf_zeroWidth hfiles ⟨rfl, rfl⟩] at hprints
    rw [houtput]
    exact ⟨hending, hprints⟩

theorem verbosity_keeps_result_zeroWidth :
    (zeroWidthTraced.run (["-q"] ++ "config" :: ["--page-width", "90"])).ending = .success ∧
      Prints (zeroWidthTraced.run (["-q"] ++ "config" :: ["--page-width", "90"])).output
        (shownWith 0 90) := by
  have hloud : zeroWidth.SetsLevel ["--verbose"] [(.verbose, none)] none :=
    ⟨by with_unfolding_all rfl, by simp [Setting.FlagsConflict], rfl⟩
  have hquiet : zeroWidthTraced.SetsLevel ["-q"] [(.quiet, none)] (some 5) :=
    ⟨by with_unfolding_all rfl, by simp [Setting.FlagsConflict], by with_unfolding_all rfl⟩
  obtain ⟨hending, houtput, -⟩ := verbosity_keeps_result zeroWidth zeroWidthTraced
    ["--page-width", "90"] rfl rfl hloud hquiet (by decide) documentsWithin_zeroWidth
  rw [hending, houtput]
  exact prints_zeroWidth

abbrev cramped : Host :=
  { Host.plain with room := 2 }

def nestedSection : Setting where
  program := "polisher"
  levelVariable := none
  disk :=
    { tree := ⟨[([configName], .file "[formatting.a.b]\n".toUTF8)]⟩
      here := [] }

theorem nested_section_breaks_traces :
    (@Setting.run cramped nestedSection ["config"]).ending.exitCode = ExitCode.success ∧
      (@Setting.run cramped nestedSection ["-vvv", "config"]).ending.exitCode = ExitCode.failure ∧
      (@Setting.run cramped nestedSection ["-vvv", "config"]).output = "" := by
  refine ⟨?_, ?_, ?_⟩
  · decide +kernel
  · decide +kernel
  · decide +kernel

end FormatSettings.CommandLine
