import FormatSettings.Arguments
import FormatSettings.Keys

namespace FormatSettings

def checkWidth (name : String) : Value → Except Failure Nat
  | .int (.ofNat n) => .ok n
  | .int i => .error (.ofOption (.negative name i))
  | v => .error (.ofOption (.notInteger name v))

structure Widths.Draft where
  block : Value := .null
  cascade : Value := .null
  expression : Value := .null
  constructorInitializer : Value := .null

namespace Widths

def ofValues (block cascade expression constructorInitializer : Value) : Except Failure Widths := do
  let b ← checkWidth Key.block block
  let c ← checkWidth Key.cascade cascade
  let e ← checkWidth Key.expression expression
  let i ← checkWidth Key.constructorInitializer constructorInitializer
  return ⟨b, c, e, i⟩

def thaw (w : Widths) : Draft :=
  ⟨.int w.block, .int w.cascade, .int w.expression, .int w.constructorInitializer⟩

def toTable (w : Widths) : Table :=
  [(Key.block, .int w.block), (Key.cascade, .int w.cascade), (Key.expression, .int w.expression),
   (Key.constructorInitializer, .int w.constructorInitializer)]

namespace Draft

def isEmpty (d : Draft) : Bool :=
  d.block.isNull && d.cascade.isNull && d.expression.isNull && d.constructorInitializer.isNull

def merge (lower upper : Draft) : Draft where
  block := upper.block.orElse lower.block
  cascade := upper.cascade.orElse lower.cascade
  expression := upper.expression.orElse lower.expression
  constructorInitializer := upper.constructorInitializer.orElse lower.constructorInitializer

def resolve (d : Draft) (base : Widths) : Except Failure Widths :=
  ofValues (d.block.orElse (.int base.block)) (d.cascade.orElse (.int base.cascade))
    (d.expression.orElse (.int base.expression))
    (d.constructorInitializer.orElse (.int base.constructorInitializer))

def freeze (d : Draft) : Except Failure Widths :=
  d.resolve Widths.default

def recordName : String := "MutableCodeIndent"

def toTable (d : Draft) : Table :=
  [(Key.block, d.block), (Key.cascade, d.cascade), (Key.expression, d.expression),
   (Key.constructorInitializer, d.constructorInitializer)]

def toValue (d : Draft) : Value :=
  .record recordName d.toTable

end Draft

def parameters : List String :=
  [Key.block, Key.cascade, Key.expression, Key.constructorInitializer]

def ofArguments (a : Arguments) : Except Failure Widths := do
  let t ← a.bind parameters
  ofValues (t.valueOr Key.block (.int default.block)) (t.valueOr Key.cascade (.int default.cascade))
    (t.valueOr Key.expression (.int default.expression))
    (t.valueOr Key.constructorInitializer (.int default.constructorInitializer))

def draftOfArguments (missing : Draft) (a : Arguments) : Except Failure Draft := do
  let t ← a.bind parameters
  return ⟨t.valueOr Key.block missing.block, t.valueOr Key.cascade missing.cascade,
    t.valueOr Key.expression missing.expression,
    t.valueOr Key.constructorInitializer missing.constructorInitializer⟩

def total (a : Arguments) : Except Failure Widths := do
  (← draftOfArguments default.thaw a).freeze

def optional (a : Arguments) : Except Failure Widths := do
  (← draftOfArguments {} a).freeze

end Widths

end FormatSettings
