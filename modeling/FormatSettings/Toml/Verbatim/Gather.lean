import FormatSettings.Toml.Verbatim

/-!
Entries put one after the other. A table may be named again to add tables below it: next to its last
place it grows, elsewhere it gets a further place. What its places hold together has to be a table.
-/

namespace FormatSettings.Toml.Verbatim

def lastTable? (entries : List Entry) : Option String :=
  entries.reverse.findSome? fun
    | .table key _ _ => some key.name
    | _ => none

def addApart (entries : List Entry) (e : Entry) : Except Failure (List Entry) :=
  match e.key?.bind fun key => lastNamed? key.name entries with
  | none => .ok (entries ++ [e])
  | some (.table _ _ _) => .ok (entries ++ [e])
  | some last => .error (.repeatedKey ((last.key?.map (·.name)).getD ""))

mutual

/-- Adds an entry, and checks that a table that gets a further place still is one. -/
def add : (fuel : Nat) → (isChecked : Bool) → List Entry → Entry → Except Failure (List Entry)
  | 0, _, entries, _ => .ok entries
  | fuel + 1, isChecked, entries, e =>
    match e, e.key?.bind fun key => lastNamed? key.name entries with
    | e, none => .ok (entries ++ [e])
    | .table key head inner, some (.table last lastHead lastInner) =>
      if head.isItem then
        .ok (replaceLast key.name (.tables key {} [(lastHead, lastInner), (head, inner)]) entries)
      else if head.isPassed && lastHead.isPassed then
        if key.isDotted || last.isDotted || lastTable? entries != some key.name then do
          let entries := entries ++ [.table key head inner]
          if isChecked then checkPlaces fuel key.name entries
          return entries
        else do
          let grown ← inner.foldlM (addWithin fuel lastHead.margin.spaces) lastInner
          return replaceLast key.name (.table last lastHead grown) entries
      else if lastHead.isPassed && last.isDotted then .error .redefinedTable
      else if head.isPassed || lastHead.isPassed then .ok (entries ++ [.table key head inner])
      else .error (.repeatedKey key.name)
    | .table key head inner, some (.tables last margin items) =>
      if head.isItem then
        .ok (replaceLast key.name (.tables last margin (items ++ [(head, inner)])) entries)
      else .error (.repeatedKey key.name)
    | .tables key _ items, some (.tables last margin lastItems) =>
      .ok (replaceLast key.name (.tables last margin (lastItems ++ items)) entries)
    | _, some last => .error (.repeatedKey ((last.key?.map (·.name)).getD ""))

/-- Adds an entry below a table, which has to stay a table after it. What stands below a table moves
to the right with its header; a table at several places has no header that could move. -/
def addWithin : (fuel : Nat) → (spaces : List Char) → List Entry → Entry →
    Except Failure (List Entry)
  | 0, _, entries, _ => .ok entries
  | fuel + 1, spaces, entries, e => do
    let entries ← add fuel true entries e
    match e.key? with
    | none => return entries
    | some key =>
      checkJoined fuel key.name entries
      if spaces.isEmpty then return entries
      else if isScattered key.name entries then throw (.missingMember (.text key.name))
      else match lastNamed? key.name entries with
        | some last => return replaceLast key.name (last.shift spaces) entries
        | none => return entries

def checkPlaces : (fuel : Nat) → String → List Entry → Except Failure Unit
  | 0, _, _ => .ok ()
  | fuel + 1, name, entries =>
    if isScattered name entries then do
      let joined ← (gathered name entries).foldlM (add fuel false) []
      checkAll fuel joined
    else .ok ()

def checkAll : (fuel : Nat) → List Entry → Except Failure Unit
  | 0, _ => .ok ()
  | fuel + 1, entries => (names entries).forM fun name => checkPlaces fuel name entries

def checkJoined : (fuel : Nat) → String → List Entry → Except Failure Unit
  | 0, _, _ => .ok ()
  | fuel + 1, name, entries =>
    if isScattered name entries then do
      let joined ← (gathered name entries).foldlM addApart []
      checkAll fuel joined
    else .ok ()

end

def addLoosely (fuel : Nat) (entries : List Entry) (e : Entry) : Except Failure (List Entry) := do
  let entries ← add fuel false entries e
  if let some key := e.key? then checkJoined fuel key.name entries
  return entries

def addLine (add : List Entry → Entry → Except Failure (List Entry)) (entries : List Entry)
    (e : Entry) : Except Failure (List Entry) :=
  match e, entries.getLast? with
  | .blank cs, some (.blank before) => .ok (entries.dropLast ++ [.blank (before ++ cs)])
  | e, _ => add entries e

end FormatSettings.Toml.Verbatim
