import FormatSettings.Proofs.CommandLine.ExitCodes

namespace FormatSettings.CommandLine

def Ending.isSuccess : Ending → Bool
  | .success => true
  | _ => false

theorem Ending.eq_success {e : Ending} (h : e.isSuccess = true) : e = .success := by
  cases e with
  | success => rfl
  | _ => cases h

namespace Setting

def given? (s : Setting) (words : List String) : Option Given :=
  match s.scanGroup words with
  | .error _ => none
  | .ok found =>
    match found.operands with
    | [] => none
    | word :: rest =>
      if Command.named? word = some .config then
        match scan configSpecs true rest with
        | .error _ => none
        | .ok found => if Given.isGiven found.options .help then none else some found.options
      else none

variable {s : Setting} {words : List String} {g : Given}

theorem given?_eq_some (h : s.given? words = some g) :
    ∃ flags word rest operands, s.scanGroup words = .ok ⟨flags, word :: rest⟩ ∧
      Command.named? word = some .config ∧ scan configSpecs true rest = .ok ⟨g, operands⟩ ∧
      g.isGiven .help = false := by
  unfold given? at h
  split at h
  · cases h
  · next found hgroup =>
    obtain ⟨flags, operands⟩ := found
    cases operands with
    | nil => cases h
    | cons word rest =>
      by_cases hname : Command.named? word = some .config
      · simp only [hname, ↓reduceIte] at h
        split at h
        · cases h
        · next inner hscan =>
          obtain ⟨options, operands⟩ := inner
          cases hhelp : Given.isGiven options .help with
          | true => simp [hhelp] at h
          | false =>
            simp only [hhelp, Bool.false_eq_true, ↓reduceIte, Option.some.injEq] at h
            cases h
            exact ⟨flags, word, rest, operands, hgroup, hname, hscan, hhelp⟩
      · simp only [hname, ↓reduceIte] at h
        cases h

section Host

variable [Host]

theorem outcome_of_ending_atLevel {flags : List (GroupFlag × Option String)}
    {go : Transcript Ending} (h : (s.atLevel flags go).ending = .success) :
    go.outcome = .ok .success := by
  cases hseverity : Log.ofFlags (countOf flags .verbose) (countOf flags .quiet) with
  | error fault =>
    simp only [atLevel, hseverity] at h
    cases h
  | ok severity =>
    cases henv : Log.ofEnvironment? s.levelVariable with
    | error f =>
      simp only [atLevel, hseverity, henv] at h
      cases h
    | ok env =>
      rcases s.atLevel_cases hseverity henv go with ⟨-, hending⟩ | ⟨-, hending, -, -⟩
      · cases hending.symm.trans h
      · rw [hending] at h
        cases hgo : go.outcome with
        | error f =>
          rw [hgo] at h
          cases h
        | ok e =>
          rw [hgo] at h
          exact congrArg Except.ok h

theorem runConfig_eq_success {rest operands : List String}
    (hscan : scan configSpecs true rest = .ok ⟨g, operands⟩) (hhelp : g.isGiven .help = false)
    (h : (s.runConfig rest).outcome = .ok .success) :
    checkOptions s.disk g = .ok () ∧ operands = [] := by
  unfold runConfig at h
  simp only [hscan, hhelp, Bool.false_eq_true, ↓reduceIte] at h
  split at h
  · cases h
  · cases h
  · next hcheck =>
    refine ⟨hcheck, ?_⟩
    unfold withoutOperands at h
    split at h
    · next hnone => exact List.isEmpty_iff.mp hnone
    · cases h

theorem accepts_of_success (hwords : s.given? words = some g)
    (h : (s.run words).ending = .success) : ∃ flags, s.Accepts words flags g := by
  obtain ⟨flags, word, rest, operands, hgroup, hname, hscan, hhelp⟩ := given?_eq_some hwords
  unfold run at h
  simp only [hgroup, hname] at h
  obtain ⟨hcheck, rfl⟩ := runConfig_eq_success hscan hhelp (outcome_of_ending_atLevel h)
  exact ⟨flags, ⟨word, rest, hgroup, hname, hscan⟩, hhelp, hcheck⟩

end Host

end Setting

/-- The settings that a successful run prints: those of the options, which are all understood, over
the layers of the nearest config file and the given ones. -/
theorem printed_settings_precedence [Host] (s : Setting) (words : List String) (g : Given)
    (hwords : s.given? words = some g) (hrun : (s.run words).ending = .success) :
    g.IsRead ∧ ∃ files, g.AreFilesOn s.disk files ∧
      Prints (s.run words).output
        (if g.isGiven .pyproject then forProgram (g.settingsOver (Config.layersOf s.disk files))
          else g.settingsOver (Config.layersOf s.disk files)) := by
  obtain ⟨flags, haccepts⟩ := Setting.accepts_of_success hwords hrun
  have hends : ∀ f, (s.run words).ending ≠ .failed f := by
    rw [hrun]
    nofun
  rcases Setting.run_cases haccepts hends with ⟨-, -, fault, hending⟩ |
    ⟨-, hknown, draft, hdraft, -, ⟨fault, -, -, hending⟩ | ⟨o, text, ho, htext, houtput, -⟩⟩
  · cases hrun.symm.trans hending
  · cases hrun.symm.trans hending
  · rw [houtput]
    refine ⟨?_, Given.prints_of_freeze hdraft ho htext⟩
    exact {
      integer := fun o => checkOptions_integer haccepts.values
      lineEnding := checkOptions_lineEnding haccepts.values
      profile := hknown.profile
      fix := hknown.fix }

def twoFiles : Setting where
  program := "polisher"
  levelVariable := none
  disk :=
    { tree := ⟨[([configName], .file "[formatting]\nindent = 2\npage_width = 90\n".toUTF8),
        (["extra.toml"], .file "[formatting]\npage_width = 70\n".toUTF8)]⟩
      here := [] }

def twoFilesWords : List String :=
  ["config", "--indent=4", "--config", "extra.toml"]

def lowerLayer : Table :=
  [("formatting", .table [("indent", .int 2), ("page_width", .int 90)])]

def upperLayer : Table :=
  [("formatting", .table [("page_width", .int 70)])]

theorem printed_settings_twoFiles :
    Prints (twoFiles.run twoFilesWords).output (shownWith 4 70) ∧
      ∃ g files, twoFiles.given? twoFilesWords = some g ∧ g.IsRead ∧
        g.AreFilesOn twoFiles.disk files ∧
        files = [⟨1, ["polisher.toml"]⟩, Path.ofText "extra.toml"] ∧
        Config.layersOf twoFiles.disk files = [lowerLayer, upperLayer] := by
  have hwords : twoFiles.given? twoFilesWords =
      some [(.indent, some "4"), (.config, some "extra.toml")] := by decide +kernel
  have hrun : (twoFiles.run twoFilesWords).ending = .success :=
    Ending.eq_success (by decide +kernel)
  have hnearest : Config.nearest twoFiles.disk (Path.ofNames []) false =
      .ok (some ⟨1, ["polisher.toml"]⟩) := Except.eq_ok_of_toOption (by decide +kernel)
  obtain ⟨hread, files, hfiles, hprints⟩ :=
    printed_settings_precedence twoFiles twoFilesWords _ hwords hrun
  have hnames : files = [⟨1, ["polisher.toml"]⟩, Path.ofText "extra.toml"] :=
    hfiles.eq_of_nearest hnearest
  have hlayers : Config.layersOf twoFiles.disk files = [lowerLayer, upperLayer] := by
    rw [hnames]
    cbv
  rw [hlayers] at hprints
  exact ⟨hprints, _, files, hwords, hread, hfiles, hnames, hlayers⟩

end FormatSettings.CommandLine
