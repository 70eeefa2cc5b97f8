import FormatSettings.Fix.Lookup
import FormatSettings.LineEnding.Lookup
import FormatSettings.Options

/-!
Drafts of options: what config files, arguments and callers have set so far. Drafts are laid over one
another, patched with arguments, and resolved into options.
-/

namespace FormatSettings

/-- The profile and the scalar fields hold any value, and null if they are not set. The sources say
where settings came from. -/
structure Draft where
  profile : Value := .null
  indent : Value := .null
  pageWidth : Value := .null
  lineEnding : Value := .null
  insertSpaces : Value := .null
  fixes : Option FixSet := none
  widths : Widths.Draft := {}
  style : Style.Draft := {}
  sources : List Value := []

def Options.thaw (o : Options) : Draft where
  indent := .int o.indent
  pageWidth := .int o.pageWidth
  lineEnding := o.lineEndingValue
  insertSpaces := .bool o.insertSpaces
  fixes := some o.fixes
  widths := o.widths.thaw
  style := o.style.thaw

namespace Draft

def recordName : String := "MutableFormatterOptions"

def toTable (d : Draft) : Table :=
  [(Key.profile, d.profile), (Key.indent, d.indent), (Key.pageWidth, d.pageWidth),
   (Key.lineEnding, d.lineEnding), (Key.insertSpaces, d.insertSpaces),
   (Key.fixes, Value.ofOption (·.toValue false) d.fixes), (Key.widths, d.widths.toValue),
   (Key.style, d.style.toValue), (Key.sources, .list d.sources)]

def toValue (d : Draft) : Value :=
  .record recordName d.toTable

def merge (lower upper : Draft) : Draft where
  profile := upper.profile.orElse lower.profile
  indent := upper.indent.orElse lower.indent
  pageWidth := upper.pageWidth.orElse lower.pageWidth
  lineEnding := upper.lineEnding.orElse lower.lineEnding
  insertSpaces := upper.insertSpaces.orElse lower.insertSpaces
  fixes := upper.fixes.or lower.fixes
  widths := lower.widths.merge upper.widths
  style := lower.style.merge upper.style
  sources := lower.sources ++ upper.sources

def styleOf (profile : Value) : Report Style :=
  if profile.isNull then pure Style.default else Style.forProfile profile

def baseStyle (d : Draft) : Report Style :=
  styleOf d.profile

def labelOf : Value → Except Failure String
  | .null => .ok Value.null.shown
  | .profile p => .ok p.label
  | .fix f => .ok f.label
  | v => .error (.missingMember v)

def resolvingText (label : String) (style : Value) : Message :=
  .showing ("Resolving options: profile=" ++ label ++ " style overrides=") style

def resolvedText (o : Options) : Message :=
  .showing "Resolved FormatterOptions: " o.toValue

def freeze (d : Draft) : Report Options := do
  let style ← Report.ofExcept (d.style.resolve (← d.baseStyle))
  let label ← Report.ofExcept (labelOf d.profile)
  Report.trace (resolvingText label d.style.toValue)
  let widths ← Report.ofExcept d.widths.freeze
  let options ← Report.ofExcept
    (Options.ofValues (d.indent.orElse (.int Options.default.indent))
      (d.pageWidth.orElse (.int Options.default.pageWidth)) d.lineEnding
      (d.insertSpaces.orElse (.bool Options.default.insertSpaces)) (.widths widths) (.style style)
      (.ok (d.fixes.getD .empty)))
  Report.debug (resolvedText options)
  return options

def resolveOptions (profile : Value) (overrides : Option Draft) : Report Options := do
  let d := Draft.merge {} (overrides.getD {})
  if profile.isNull then d.freeze
  else do
    let p ← Profile.ofToken profile ""
    Draft.freeze { d with profile := .profile p }

end Draft

end FormatSettings
