import FormatSettings.Draft

namespace FormatSettings.Draft

abbrev Step := Draft → Report Draft

def ifSet (args : Table) (key : String) (f : Value → Step) : Step := fun d =>
  let v := args.valueOf key
  if v.isNull then pure d else f v d

def argumentSource : String := "arguments"

def setProfile (v : Value) : Step := fun d => do
  let p ← Profile.ofToken v argumentSource
  return { d with profile := .profile p }

def setLineEnding (v : Value) : Step := fun d => do
  let e ← LineEnding.ofToken v argumentSource
  return { d with lineEnding := Value.ofOption (fun e => .text e.newline) e }

def isFix : Value → Bool
  | .fix _ => true
  | _ => false

def givenFixes (vs : List Value) : List Fix :=
  vs.filterMap fun
    | .fix f => some f
    | _ => none

def addFixes (v : Value) : Step := fun d =>
  match v.elements? with
  | none => Report.fail (.call (.notIterable v))
  | some vs => do
    let named ← Fix.selected argumentSource (vs.filter (!isFix ·))
    let added := FixSet.ofFixes (givenFixes vs ++ named)
    return { d with fixes := some ((d.fixes.getD .empty).union added) }

def widthArguments (args : Table) : Widths.Draft where
  block := args.valueOf Key.blockIndent
  cascade := args.valueOf Key.cascadeIndent
  expression := args.valueOf Key.expressionIndent
  constructorInitializer := args.valueOf Key.constructorInitializerIndent

def scalarSteps (args : Table) : List Step :=
  [ifSet args Key.profile setProfile,
   ifSet args Key.indent fun v d => pure { d with indent := v },
   ifSet args Key.pageWidth fun v d => pure { d with pageWidth := v },
   ifSet args Key.lineEnding setLineEnding,
   ifSet args Key.insertSpaces fun v d => pure { d with insertSpaces := v }]

def fixesStep (args : Table) : Step := fun d =>
  let v := args.valueOf Key.fixes
  if v.holds then addFixes v d else pure d

def widthsStep (args : Table) : Step := fun d =>
  pure { d with widths := d.widths.merge (widthArguments args) }

def steps (args : Table) : List Step :=
  scalarSteps args ++ [fixesStep args, widthsStep args]

def runSteps (d : Draft) : List Step → Draft × Report Unit
  | [] => (d, pure ())
  | step :: rest =>
    let r := step d
    match r.outcome with
    | .error e => (d, ⟨r.notices, .error e⟩)
    | .ok d =>
      let (last, s) := runSteps d rest
      (last, ⟨r.notices ++ s.notices, s.outcome⟩)

def argumentLayer : Value := .text "<CLI overrides>"

def applyingText (args : Value) : Message where
  text := "Applying argument overrides: " ++ args.tokenText
  depth := args.depth

def patchedText (d : Value) : Message :=
  .showing "Patched MutableFormatterOptions: " d

def patchBy (steps : List Step) (shownAs : Draft → Value) (d : Draft) (args : Value) :
    Draft × Report Unit :=
  let (last, r) := runSteps { d with sources := d.sources ++ [argumentLayer] } steps
  (last, do
    Report.debug (applyingText args)
    r
    Report.debug (patchedText (shownAs last)))

def patch (d : Draft) (args : Table) : Draft × Report Unit :=
  patchBy (steps args) toValue d (.table args)

def applyArguments (d : Draft) (args : Table) : Report Draft := do
  let (last, r) := d.patch args
  r
  return last

end FormatSettings.Draft
