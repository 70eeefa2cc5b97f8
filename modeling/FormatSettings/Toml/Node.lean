import FormatSettings.Value

/-!
Tables under construction. A table remembers how it was defined, because that decides what may still
be added to it: a header may define a table once, and may open one that was only passed through; a
dotted key may extend tables that no header has defined.
-/

namespace FormatSettings.Toml

inductive Definition
  | passed
  | headed
  | dotted
  deriving Repr, DecidableEq

inductive Node
  | value (v : Value)
  | table (definition : Definition) (entries : List (String × Node))
  | tables (items : List (List (String × Node)))

abbrev Entries := List (String × Node)

mutual

def Node.toValue : Node → Value
  | .value v => v
  | .table _ entries => .table (toTable entries)
  | .tables items => .list (toValues items)

def toTable : List (String × Node) → List (String × Value)
  | [] => []
  | (k, n) :: rest => (k, n.toValue) :: toTable rest

def toValues : List (List (String × Node)) → List Value
  | [] => []
  | item :: rest => .table (toTable item) :: toValues rest

end

def alter (key : String) (f : Option Node → Option Node) : Entries → Option Entries
  | [] => (f none).map fun n => [(key, n)]
  | (k, n) :: rest =>
    if k == key then (f (some n)).map fun n => (k, n) :: rest
    else (alter key f rest).map ((k, n) :: ·)

def alterLast {α : Type} (f : α → Option α) : List α → Option (List α)
  | [] => none
  | [a] => (f a).map ([·])
  | a :: rest => (alterLast f rest).map (a :: ·)

def assign (v : Value) : List String → Entries → Option Entries
  | [], _ => none
  | [key], entries => alter key (fun
      | none => some (.value v)
      | some _ => none) entries
  | key :: path, entries => alter key (fun
      | none => (assign v path []).map (.table .dotted)
      | some (.table .headed _) => none
      | some (.table _ inner) => (assign v path inner).map (.table .dotted)
      | some _ => none) entries

def assignAll : List (List String × Value) → Entries → Option Entries
  | [], entries => some entries
  | (path, v) :: rest, entries => (assign v path entries).bind (assignAll rest)

/-- Changes the entries that a header names. `last` says what the header does with its last key. -/
def open? (last : Option Node → Option Node) : List String → Entries → Option Entries
  | [], _ => none
  | [key], entries => alter key last entries
  | key :: path, entries => alter key (fun
      | none => (open? last path []).map (.table .passed)
      | some (.table definition inner) => (open? last path inner).map (.table definition)
      | some (.tables items) => (alterLast (open? last path) items).map .tables
      | some (.value _) => none) entries

def openTable (pairs : List (List String × Value)) : Option Node → Option Node
  | none => (assignAll pairs []).map (.table .headed)
  | some (.table .passed entries) => (assignAll pairs entries).map (.table .headed)
  | some _ => none

def openItem (pairs : List (List String × Value)) : Option Node → Option Node
  | none => (assignAll pairs []).map fun item => .tables [item]
  | some (.tables items) => (assignAll pairs []).map fun item => .tables (items ++ [item])
  | some _ => none

def inlineTable? (pairs : List (List String × Value)) : Option Value :=
  (assignAll pairs []).map fun entries => .table (toTable entries)

end FormatSettings.Toml
