import FormatSettings.Arguments
import FormatSettings.Keys
import FormatSettings.Report

namespace FormatSettings

def checkStyleFlag (name : String) : Value → Except Failure Bool
  | .bool b => .ok b
  | v => .error (.ofOption (.styleFlagNotFlag name v))

structure Style.Draft where
  bracesOnBlockLike : Value := .null
  bracesOnCollectionLiterals : Value := .null
  bracesOnEnum : Value := .null
  tryClauseOnNewline : Value := .null
  ifElseOnNewline : Value := .null

namespace Style

def ofValues (blockLike collections enum tryClause ifElse : Value) : Except Failure Style := do
  let b ← checkStyleFlag Key.bracesOnBlockLike blockLike
  let c ← checkStyleFlag Key.bracesOnCollectionLiterals collections
  let e ← checkStyleFlag Key.bracesOnEnum enum
  let t ← checkStyleFlag Key.tryClauseOnNewline tryClause
  let i ← checkStyleFlag Key.ifElseOnNewline ifElse
  return ⟨b, c, e, t, i⟩

def noStyleText (v : Value) : Message where
  text := "Profile " ++ v.shown ++ " has no dedicated style; using defaults"
  depth := v.depth

def forProfile (v : Value) : Report Style :=
  match v with
  | .profile .dartStyle => pure default
  | .profile .expanded => pure expanded
  | v => do
    Report.trace (noStyleText v)
    return default

def thaw (s : Style) : Draft :=
  ⟨.bool s.bracesOnBlockLike, .bool s.bracesOnCollectionLiterals, .bool s.bracesOnEnum,
   .bool s.tryClauseOnNewline, .bool s.ifElseOnNewline⟩

def toTable (s : Style) : Table :=
  [(Key.bracesOnBlockLike, .bool s.bracesOnBlockLike),
   (Key.bracesOnCollectionLiterals, .bool s.bracesOnCollectionLiterals),
   (Key.bracesOnEnum, .bool s.bracesOnEnum),
   (Key.tryClauseOnNewline, .bool s.tryClauseOnNewline),
   (Key.ifElseOnNewline, .bool s.ifElseOnNewline)]

namespace Draft

def isEmpty (d : Draft) : Bool :=
  d.bracesOnBlockLike.isNull && d.bracesOnCollectionLiterals.isNull && d.bracesOnEnum.isNull &&
    d.tryClauseOnNewline.isNull && d.ifElseOnNewline.isNull

def merge (lower upper : Draft) : Draft where
  bracesOnBlockLike := upper.bracesOnBlockLike.orElse lower.bracesOnBlockLike
  bracesOnCollectionLiterals :=
    upper.bracesOnCollectionLiterals.orElse lower.bracesOnCollectionLiterals
  bracesOnEnum := upper.bracesOnEnum.orElse lower.bracesOnEnum
  tryClauseOnNewline := upper.tryClauseOnNewline.orElse lower.tryClauseOnNewline
  ifElseOnNewline := upper.ifElseOnNewline.orElse lower.ifElseOnNewline

def resolve (d : Draft) (base : Style) : Except Failure Style :=
  ofValues (d.bracesOnBlockLike.orElse (.bool base.bracesOnBlockLike))
    (d.bracesOnCollectionLiterals.orElse (.bool base.bracesOnCollectionLiterals))
    (d.bracesOnEnum.orElse (.bool base.bracesOnEnum))
    (d.tryClauseOnNewline.orElse (.bool base.tryClauseOnNewline))
    (d.ifElseOnNewline.orElse (.bool base.ifElseOnNewline))

def freeze (d : Draft) : Except Failure Style :=
  d.resolve Style.default

def recordName : String := "MutableCodeStyle"

def toTable (d : Draft) : Table :=
  [(Key.bracesOnBlockLike, d.bracesOnBlockLike),
   (Key.bracesOnCollectionLiterals, d.bracesOnCollectionLiterals),
   (Key.bracesOnEnum, d.bracesOnEnum), (Key.tryClauseOnNewline, d.tryClauseOnNewline),
   (Key.ifElseOnNewline, d.ifElseOnNewline)]

def toValue (d : Draft) : Value :=
  .record recordName d.toTable

end Draft

def parameters : List String :=
  [Key.bracesOnBlockLike, Key.bracesOnCollectionLiterals, Key.bracesOnEnum, Key.tryClauseOnNewline,
   Key.ifElseOnNewline]

def ofArguments (a : Arguments) : Except Failure Style := do
  let t ← a.bind parameters
  let flag (name : String) (missing : Bool) : Value := t.valueOr name (.bool missing)
  ofValues (flag Key.bracesOnBlockLike default.bracesOnBlockLike)
    (flag Key.bracesOnCollectionLiterals default.bracesOnCollectionLiterals)
    (flag Key.bracesOnEnum default.bracesOnEnum)
    (flag Key.tryClauseOnNewline default.tryClauseOnNewline)
    (flag Key.ifElseOnNewline default.ifElseOnNewline)

end Style

end FormatSettings
