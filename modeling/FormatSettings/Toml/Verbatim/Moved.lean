import FormatSettings.Toml.Verbatim.Gather

/-!
Entries of a document moved into another table. Their headers get new paths, values come first, and a
blank line parts tables. The places of a scattered table are joined, except for the scattered tables
that it holds: their headers stay as they are.
-/

namespace FormatSettings.Toml.Verbatim

mutual

def Entry.forgetPaths : Entry → Entry
  | .table key head entries =>
    .table key { head with path? := none } (forgetEach entries entries)
  | .tables key margin items => .tables key margin (forgetItems items)
  | e => e

/-- Forgets the paths of entries that are not scattered among all entries of their table. -/
def forgetEach (all : List Entry) : List Entry → List Entry
  | [] => []
  | e :: rest =>
    (if e.key?.any fun key => isScattered key.name all then e else e.forgetPaths) ::
      forgetEach all rest

def forgetItems : List (Head × List Entry) → List (Head × List Entry)
  | [] => []
  | item :: rest => forgetItem item :: forgetItems rest

def forgetItem : Head × List Entry → Head × List Entry
  | (head, entries) =>
    ({ head with path? := none }, forgetEach entries entries)

end

mutual

def Entry.endsBlank : Entry → Bool
  | .blank _ => true
  | .table _ _ entries => endBlank entries
  | .tables _ _ items => itemsEndBlank items
  | _ => false

def endBlank : List Entry → Bool
  | [] => false
  | [e] => e.endsBlank
  | _ :: e :: rest => endBlank (e :: rest)

def itemsEndBlank : List (Head × List Entry) → Bool
  | [] => false
  | [item] => itemEndsBlank item
  | _ :: item :: rest => itemsEndBlank (item :: rest)

def itemEndsBlank : Head × List Entry → Bool
  | (_, entries) => endBlank entries

end

namespace Entry

def breakBefore : Entry → Entry
  | .value key margin form text => .value key margin.withBreakBefore form text
  | .table key head entries =>
    .table key { head with margin := head.margin.withBreakBefore } entries
  | .tables key margin items => .tables key margin.withBreakBefore items
  | e => e

def breakAfter : Entry → Entry
  | .value key margin form text => .value key margin.withBreakAfter form text
  | e => e

def partFrom (e before : Entry) : Entry :=
  match e with
  | .table key head entries =>
    if head.margin.indent.isEmpty && !before.endsBlank then
      .table key { head with margin := { head.margin with indent := ['\n'] } } entries
    else .table key head entries
  | .tables key margin ((head, entries) :: items) =>
    if before.endsBlank then .tables key margin ((head, entries) :: items)
    else
      .tables key margin (({ head with margin := head.margin.withBreakBefore }, entries) :: items)
  | e => e

end Entry

def placeValue (entries : List Entry) (e : Entry) : List Entry :=
  let before := entries.takeWhile (!·.holdsTables)
  let before := match before.getLast? with
    | some last => before.dropLast ++ [last.breakAfter]
    | none => []
  match entries.dropWhile (!·.holdsTables) with
  | [] => before ++ [e]
  | next :: after => before ++ e :: next.breakBefore :: after

/-- Puts an entry with a new name among the entries of a table: values first, each table at the
end. -/
def place (entries : List Entry) (e : Entry) : List Entry :=
  match e, entries.getLast? with
  | .table key head inner, none => [(Entry.table key head inner).forgetPaths]
  | e, none => [e]
  | e, some last =>
    if e.holdsTables then entries ++ [e.forgetPaths.partFrom last] else placeValue entries e

def Entry.moved (name : String) : Entry → Entry
  | .value _ margin form text =>
    .value (.ofName name) (if form == .flag then {} else margin) form text
  | e => e.withKey (.ofName name)

def Entry.isNested : Entry → Bool
  | .table _ _ _ => true
  | .value _ _ form _ => form == .braces
  | _ => false

/-- The entry of a name. The places of a scattered table are joined, values first. -/
def entryNamed (limit : Nat) : (fuel : Nat) → String → List Entry → Except Failure Entry
  | 0, _, _ => .error .invalidDocument
  | fuel + 1, name, entries =>
    if isScattered name entries then do
      checkJoined limit name entries
      let joined := gathered name entries
      let parts ← (names joined).mapM fun inner => entryNamed limit fuel inner joined
      let (nested, plain) := parts.partition Entry.isNested
      let body := (plain ++ nested).foldl place []
      let isPassed := !body.isEmpty && body.all Entry.holdsTables
      return .table (.ofName name) { Head.opened with isPassed := isPassed } body
    else match lastNamed? name entries with
      | some e => .ok (e.moved name)
      | none => .error .invalidDocument

def topEntries (limit : Nat) (entries : List Entry) : Except Failure (List Entry) :=
  (names entries).mapM fun name => entryNamed limit (heightOf entries + 1) name entries

def behindPath : List String → List Entry → List Entry
  | [], entries => entries
  | [part], entries => [.table (.ofName part) Head.opened entries]
  | part :: path, entries => [.table (.ofName part) Head.passed (behindPath path entries)]

end FormatSettings.Toml.Verbatim
