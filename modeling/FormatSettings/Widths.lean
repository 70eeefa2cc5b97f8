namespace FormatSettings

structure Widths where
  block : Nat := 2
  cascade : Nat := 2
  expression : Nat := 4
  constructorInitializer : Nat := 4
  deriving Repr, DecidableEq

namespace Widths

def default : Widths := {}

end Widths

end FormatSettings
