import FormatSettings.Draft.Operations

namespace FormatSettings.Options

def parameters : List String :=
  [Key.indent, Key.pageWidth, Key.lineEnding, Key.fixes, Key.widths, Key.insertSpaces, Key.style]

def ofArguments (a : Arguments) : Except Failure Options := do
  let t ← a.bind parameters
  ofValues (t.valueOr Key.indent (.int default.indent))
    (t.valueOr Key.pageWidth (.int default.pageWidth)) (t.valueOr Key.lineEnding .null)
    (t.valueOr Key.insertSpaces (.bool default.insertSpaces))
    (t.valueOr Key.widths (.widths default.widths)) (t.valueOr Key.style (.style default.style))
    (FixSet.ofValue? (t.valueOr Key.fixes (.set true [])))

def bundleArgument (missing v : Value) : Except Failure Value :=
  if v.isNull then .ok missing else v.thaw

def fixesArgument (v : Value) : Except Failure (Option FixSet) :=
  if v.isNull then .ok none else (FixSet.ofValue? v).map some

def ofNullable (t : Table) : Report Options := do
  let fixes ← Report.ofExcept (fixesArgument (t.valueOf Key.fixes))
  let widths ← Report.ofExcept
    (bundleArgument ({} : Widths.Draft).toValue (t.valueOf Key.widths))
  let style ← Report.ofExcept (bundleArgument ({} : Style.Draft).toValue (t.valueOf Key.style))
  let d : Draft :=
    { indent := t.valueOf Key.indent
      pageWidth := t.valueOf Key.pageWidth
      lineEnding := t.valueOf Key.lineEnding
      insertSpaces := t.valueOf Key.insertSpaces
      fixes := fixes }
  Value.freezeOptions (d.tableWith [(Key.widths, widths), (Key.style, style)])

def optional (a : Arguments) : Report Options := do
  let t ← Report.ofExcept (a.bindNamed parameters)
  ofNullable t

def explicitDefaults : Table :=
  [(Key.lineEnding, .null), (Key.indent, .int default.indent),
   (Key.pageWidth, .int default.pageWidth), (Key.insertSpaces, .bool default.insertSpaces),
   (Key.style, .style default.style), (Key.fixes, .set true []),
   (Key.widths, .widths default.widths)]

def total (a : Arguments) : Report Options := do
  let t ← Report.ofExcept (a.bindNamed parameters)
  ofNullable (t ++ explicitDefaults)

def takenNames : List String :=
  ["cls", Key.profile]

def forProfile (profile : Value) (a : Arguments) : Report Options := do
  if let some name := takenNames.find? a.named.hasKey then
    Report.fail (.call (.repeatedArgument name))
  let p ← Profile.ofToken profile ""
  if (a.named.valueOf Key.style).isNull then do
    let style ← Style.forProfile (.profile p)
    optional { a with named := (Key.style, .style style) :: a.named.filter (·.1 != Key.style) }
  else optional a

end FormatSettings.Options
