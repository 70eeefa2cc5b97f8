namespace FormatSettings

structure Style where
  bracesOnBlockLike : Bool := false
  bracesOnCollectionLiterals : Bool := false
  bracesOnEnum : Bool := false
  tryClauseOnNewline : Bool := false
  ifElseOnNewline : Bool := false
  deriving Repr, DecidableEq

namespace Style

def default : Style := {}

def expanded : Style :=
  ⟨true, false, true, true, true⟩

end Style

end FormatSettings
