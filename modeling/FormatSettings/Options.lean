import FormatSettings.FixSet
import FormatSettings.Style.Draft
import FormatSettings.Widths.Draft

namespace FormatSettings

structure Newline where
  ending : LineEnding
  isNamed : Bool
  deriving Repr, DecidableEq

namespace Newline

def toValue (n : Newline) : Value :=
  if n.isNamed then .lineEnding n.ending else .text n.ending.newline

end Newline

structure Options where
  indent : Nat := 0
  pageWidth : Nat := 80
  lineEnding : Option Newline := none
  fixes : FixSet := .empty
  widths : Widths := .default
  insertSpaces : Bool := true
  style : Style := .default
  pageWidth_pos : 0 < pageWidth := by decide

namespace Options

def default : Options := {}

def checkPageWidth (v : Value) : Except Failure { n : Nat // 0 < n } := do
  let n ← checkWidth Key.pageWidth v
  if h : 0 < n then return ⟨n, h⟩ else throw (.ofOption (.pageWidthTooSmall n))

def checkLineEnding (v : Value) : Except Failure (Option Newline) :=
  match v with
  | .null => .ok none
  | .lineEnding e => .ok (some ⟨e, true⟩)
  | v => match v.asText?.bind LineEnding.ofNewline? with
    | some e => .ok (some ⟨e, false⟩)
    | none => .error (.ofOption (.unknownLineEnding v))

def checkInsertSpaces : Value → Except Failure Bool
  | .bool b => .ok b
  | v => .error (.ofOption (.insertSpacesNotFlag v))

def checkWidths : Value → Except Failure Widths
  | .widths w => .ok w
  | v => .error (.ofOption (.notWidths v))

def checkStyle : Value → Except Failure Style
  | .style s => .ok s
  | v => .error (.ofOption (.notStyle v))

def ofValues (indent pageWidth lineEnding insertSpaces widths style : Value)
    (fixes : Except Failure FixSet) : Except Failure Options := do
  let i ← checkWidth Key.indent indent
  let ⟨p, pos⟩ ← checkPageWidth pageWidth
  let l ← checkLineEnding lineEnding
  let s ← checkInsertSpaces insertSpaces
  let w ← checkWidths widths
  let y ← checkStyle style
  let f ← fixes
  return ⟨i, p, l, f, w, s, y, pos⟩

def lineEndingValue (o : Options) : Value :=
  Value.ofOption Newline.toValue o.lineEnding

def same (o p : Options) : Bool :=
  o.indent == p.indent && o.pageWidth == p.pageWidth &&
    o.lineEnding.map Newline.ending == p.lineEnding.map Newline.ending &&
    o.fixes.same p.fixes && o.widths == p.widths && o.insertSpaces == p.insertSpaces &&
    o.style == p.style

def recordName : String := Value.optionsName

def toValue (o : Options) : Value :=
  .record recordName
    [(Key.indent, .int o.indent), (Key.pageWidth, .int o.pageWidth),
     (Key.lineEnding, o.lineEndingValue), (Key.fixes, o.fixes.toValue true),
     (Key.widths, .widths o.widths), (Key.insertSpaces, .bool o.insertSpaces),
     (Key.style, .style o.style)]

def formattingTable (o : Options) : Except Failure Table := do
  let keys ← o.fixes.keys?
  let lineEnding : Table := match o.lineEnding with
    | some n => [(Key.lineEnding, .text n.ending.token)]
    | none => []
  return [(Key.indent, .int o.indent), (Key.pageWidth, .int o.pageWidth),
    (Key.insertSpaces, .bool o.insertSpaces), (Key.fixes, .list (keys.map .text))] ++ lineEnding

def toTable (o : Options) : Except Failure Table := do
  return [(Key.formatting, .table (← o.formattingTable)), (Key.indent, .table o.widths.toTable),
    (Key.style, .table o.style.toTable)]

end Options

end FormatSettings
