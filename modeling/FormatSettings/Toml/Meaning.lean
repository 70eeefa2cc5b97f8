import FormatSettings.Value

namespace FormatSettings

/-- What a value says, whichever order the keys of its tables have. -/
inductive Meaning
  | value (v : Value)
  | list (items : List Meaning)
  | table (entry : String → Option Meaning)

mutual

def Value.meaning : Value → Meaning
  | .list vs => .list (meanings vs)
  | .table entries => .table (Table.meaning entries)
  | v => .value v

def meanings : List Value → List Meaning
  | [] => []
  | v :: vs => v.meaning :: meanings vs

def Table.meaning : Table → String → Option Meaning
  | [], _ => none
  | (k, v) :: rest, key => if k == key then some v.meaning else Table.meaning rest key

end

end FormatSettings
