import FormatSettings.Toml.Verbatim.Line

namespace FormatSettings.Toml.Verbatim

structure Section where
  isItem : Bool
  keys : List Key
  margin? : Option Margin
  lines : List Entry
  fault? : Option Failure

structure Sections where
  lines : List Entry
  fault? : Option Failure
  sections : List Section

namespace Sections

def put (line : Line) (s : Sections) : Sections :=
  match line with
  | .entry e => { s with lines := e :: s.lines }
  | .header isItem keys margin? =>
    ⟨[], none, ⟨isItem, keys, margin?, s.lines, s.fault?⟩ :: s.sections⟩
  | .fault failure => { s with fault? := some failure }

def ofLines (lines : List Line) : Sections :=
  lines.foldr put ⟨[], none, []⟩

end Sections

def checkFault : Option Failure → Except Failure Unit
  | none => .ok ()
  | some failure => .error failure

namespace Section

def path (s : Section) : List String :=
  s.keys.map (·.name)

def pathText (s : Section) : List Char :=
  List.intercalate ['.'] (s.keys.map (·.text))

def isBelow (path : List String) (s : Section) : Bool :=
  path.isPrefixOf s.path && path != s.path

def head (margin : Margin) (s : Section) : Head :=
  ⟨margin, some s.pathText, s.isItem, false⟩

def pathKey (s : Section) : Key :=
  ⟨".".intercalate s.path, s.pathText, [' ', '=', ' '], false⟩

def chain (margin : Margin) (s : Section) (entries : List Entry) : List Key → Entry
  | [] => .table s.pathKey (s.head margin) entries
  | [key] =>
    if s.isItem then .tables key {} [(s.head margin, entries)]
    else .table key (s.head margin) entries
  | key :: keys => .table key ⟨margin, none, false, true⟩ [chain margin s entries keys]

end Section

mutual

def Section.readBody (limit fuel : Nat) (outer : List (List String)) (s : Section)
    (rest : List Section) : Except Failure (List Entry × List Section) :=
  match fuel with
  | 0 => .error .invalidDocument
  | fuel + 1 => do
    let entries ← s.lines.foldlM (addLine (addLoosely limit)) []
    checkFault s.fault?
    let (entries, rest) ← readBelow limit fuel outer s.path entries rest
    checkAll limit entries
    return (entries, rest)

def readBelow (limit fuel : Nat) (outer : List (List String)) (path : List String)
    (entries : List Entry) (rest : List Section) : Except Failure (List Entry × List Section) :=
  match fuel, rest with
  | fuel + 1, s :: rest =>
    if s.isBelow path then do
      let (e, rest) ← Section.read limit fuel outer path s rest
      readBelow limit fuel outer path (← addLoosely limit entries e) rest
    else .ok (entries, s :: rest)
  | _, rest => .ok (entries, rest)

def Section.read (limit fuel : Nat) (outer : List (List String)) (parent : List String)
    (s : Section) (rest : List Section) : Except Failure (Entry × List Section) :=
  match fuel, s.margin? with
  | fuel + 1, some margin => do
    let (entries, rest) ← s.readBody limit fuel outer rest
    match s.keys.drop parent.length with
    | [key] =>
      if s.isItem then do
        let (items, rest) ← readItems limit fuel (s.path :: outer) s.path rest
        return (.tables key {} ((s.head margin, entries) :: items), rest)
      else return (.table key (s.head margin) entries, rest)
    | key :: keys =>
      let isItem := s.isItem && outer.contains [key.name]
      return (.table key ⟨{ margin with indent := [] }, none, isItem, true⟩
        [s.chain margin entries keys], rest)
    | [] => return (.table s.pathKey (s.head margin) entries, rest)
  | _, _ => .error .invalidDocument

def readItems (limit fuel : Nat) (outer : List (List String)) (path : List String)
    (rest : List Section) : Except Failure (List (Head × List Entry) × List Section) :=
  match fuel, rest with
  | fuel + 1, s :: rest =>
    if s.isItem && s.path == path then
      match s.margin? with
      | some margin => do
        let (entries, rest) ← s.readBody limit fuel outer rest
        let (items, rest) ← readItems limit fuel outer path rest
        return ((s.head margin, entries) :: items, rest)
      | none => .error .invalidDocument
    else .ok ([], s :: rest)
  | _, rest => .ok ([], rest)

end

def addOnTop (limit : Nat) (entries : List Entry) (e : Entry) : Except Failure (List Entry) :=
  (add limit true entries e).mapError fun _ => .invalidDocument

def readSections (limit : Nat) : (fuel : Nat) → List Entry → List Section →
    Except Failure (List Entry)
  | 0, _, _ => .error .invalidDocument
  | _, entries, [] => .ok entries
  | fuel + 1, entries, s :: rest => do
    let (e, rest) ← s.read limit (4 * (rest.length + 2)) [] [] rest
    readSections limit fuel (← addOnTop limit entries e) rest

def nestingLimit (cs : List Char) : Nat :=
  4 * (cs.length + 1)

def read (cs : List Char) : Except Failure (List Entry) := do
  let s := Sections.ofLines (readLines cs.length cs)
  let limit := nestingLimit cs
  let entries ← s.lines.foldlM (addLine (addOnTop limit)) []
  checkFault s.fault?
  readSections limit (s.sections.length + 1) entries s.sections

end FormatSettings.Toml.Verbatim
