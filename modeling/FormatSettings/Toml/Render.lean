import FormatSettings.Toml.Written

/-!
Tables rendered as documents: the pairs of a table, then its arrays of tables, then its tables, all
tables of one depth before the next depth. A table that holds only tables has no header of its own.
-/

namespace FormatSettings.Toml

structure Block where
  path : List Char
  body : Except Failure (List Char)
  holdsTables : Bool

structure Body where
  pairs : List Char := []
  arrays : List Char := []

structure Layout where
  own : Except Failure Body := .ok {}
  blocks : List (List Block) := []

def joinLevels : List (List Block) → List (List Block) → List (List Block)
  | [], right => right
  | left, [] => left
  | l :: left, r :: right => (l ++ r) :: joinLevels left right

def Layout.append (l m : Layout) : Layout where
  own := do
    let a ← l.own
    let b ← m.own
    return ⟨a.pairs ++ b.pairs, a.arrays ++ b.arrays⟩
  blocks := joinLevels l.blocks m.blocks

def Layout.body (l : Layout) : Except Failure (List Char) :=
  l.own.map fun b => b.pairs ++ b.arrays

def extendPath (path key : List Char) : List Char :=
  if path.isEmpty then key else path ++ '.' :: key

def headerLine (path : List Char) : List Char :=
  '[' :: path ++ [']', '\n']

def itemLine (path : List Char) : List Char :=
  '[' :: '[' :: path ++ [']', ']', '\n']

def isTable : Value → Bool
  | .table _ => true
  | _ => false

def pairLayout (key : List Char) (v : Value) : Layout where
  own := (writeValue v).map fun text => { pairs := key ++ ' ' :: '=' :: ' ' :: text ++ ['\n'] }

def itemBlocks : List Block → Except Failure (List Char)
  | [] => .ok []
  | b :: rest => do
    let body ← b.body
    let text := if body.isEmpty then [] else headerLine b.path ++ body
    return text ++ (← itemBlocks rest)

def itemText (path : List Char) (l : Layout) : Except Failure (List Char) := do
  let body ← l.body
  let opensTable := body.head? == some '['
  let text := itemLine path ++ (if opensTable then '\n' :: body else body ++ ['\n'])
  return text ++ (← itemBlocks l.blocks.flatten)

def looseItemText (path : List Char) (v : Value) : Except Failure (List Char) :=
  match v.elements? with
  | some [] => itemText path {}
  | some (first :: _) => do
    let _ ← writeKey first.tokenText
    throw (.call (.notATable v))
  | none => .error (.call (.notATable v))

mutual

def layoutEntries (path : List Char) : List (String × Value) → Layout
  | [] => {}
  | (key, v) :: rest =>
    match writeKey key with
    | .ok key => (layoutEntry path key v).append (layoutEntries path rest)
    | .error failure => { own := .error failure }

def layoutEntry (path key : List Char) : Value → Layout
  | .null => {}
  | .table entries =>
    let below := extendPath path key
    let l := layoutEntries below entries
    { blocks := [⟨below, l.body, !l.blocks.isEmpty⟩] :: l.blocks }
  | .list vs =>
    if vs.any isTable then
      { own := (layoutItems (extendPath path key) vs).map fun text => { arrays := text } }
    else pairLayout key (.list vs)
  | v => pairLayout key v

def layoutItems (path : List Char) : List Value → Except Failure (List Char)
  | [] => .ok []
  | v :: vs => do
    let item ← match v with
      | .table entries => itemText path (layoutEntries path entries)
      | v => looseItemText path v
    return item ++ (← layoutItems path vs)

end

def addBlock (text : List Char) (b : Block) : Except Failure (List Char) := do
  let body ← b.body
  if body.isEmpty && b.holdsTables then return text
  else
    let endsBlank := text.reverse.take 2 == ['\n', '\n']
    let gap := if text.isEmpty || endsBlank then [] else ['\n']
    return text ++ gap ++ headerLine b.path ++ body

def renderChars (t : Table) : Except Failure (List Char) := do
  let l := layoutEntries [] t
  l.blocks.flatten.foldlM addBlock (← l.body)

def render (t : Table) : Except Failure String :=
  (renderChars t).map String.ofList

end FormatSettings.Toml
