import FormatSettings.Value

namespace FormatSettings.Toml

inductive Kind
  | flag
  | integer
  | float
  | text
  | date
  | time
  | array
  | other
  deriving Repr, DecidableEq

def kind : Value → Kind
  | .bool _ => .flag
  | .int _ => .integer
  | .float _ => .float
  | .text _ => .text
  | .moment (.date _) => .date
  | .moment (.time _) => .time
  | .moment (.dateTime _ _ _) => .date
  | .list _ => .array
  | _ => .other

def sameKinds : List Value → Bool
  | [] => true
  | [_] => true
  | v :: w :: rest => kind v == kind w && sameKinds (w :: rest)

mutual

def isUniform : Value → Bool
  | .list vs => sameKinds vs && areUniform vs
  | .table entries => entriesUniform entries
  | _ => true

def areUniform : List Value → Bool
  | [] => true
  | v :: vs => isUniform v && areUniform vs

def entriesUniform : List (String × Value) → Bool
  | [] => true
  | (_, v) :: rest => isUniform v && entriesUniform rest

end

end FormatSettings.Toml
