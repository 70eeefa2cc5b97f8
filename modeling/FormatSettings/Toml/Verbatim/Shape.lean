import FormatSettings.Toml.Verbatim

/-!
Entries written as a document again. A table under a dotted key has no header: its pairs have the
keys that lead to it in front.
-/

namespace FormatSettings.Toml.Verbatim

/-- Where entries stand: in a document, under the header of a table, or in an item of an array of
tables. -/
inductive Place
  | document
  | table (isDotted : Bool) (path : List Char)
  | item (path : List Char)

namespace Place

def tablePath (p : Place) (isPassedByDot : Bool) : List Char :=
  match p with
  | .document => []
  | .table isDotted path => if isPassedByDot && !isDotted then [] else path ++ ['.']
  | .item path => if isPassedByDot then [] else path ++ ['.']

def arrayPath : Place → List Char
  | .document => []
  | .table _ path => path ++ ['.']
  | .item path => path ++ ['.']

def valuePath : Place → List Char
  | .table true path => path ++ ['.']
  | _ => []

def headerGap (p : Place) (done : List Char) (margin : Margin) : List Char :=
  match p with
  | .item _ => []
  | _ =>
    match done.reverse.dropWhile (· == ' ') with
    | [] => []
    | c :: _ => if c == '\n' || margin.breaksBefore then [] else ['\n']

end Place

def Head.line (head : Head) (path : List Char) (entries : List Entry) : List Char :=
  let isBreakMissing := !head.margin.breaksAfter && entries.any fun e => e.key?.isSome
  head.margin.indent ++
    (if head.isItem then '[' :: '[' :: path ++ [']', ']'] else '[' :: path ++ [']']) ++
    head.margin.close ++ (if isBreakMissing then ['\n'] else [])

def Head.itemLine (head : Head) (path : List Char) : List Char :=
  head.margin.indent ++ '[' :: '[' :: path ++ [']', ']'] ++ head.margin.close

/-- An entry that has to stand under the header of its table. Tables have headers of their own, unless
a dotted key leads to them. -/
def Entry.needsHeader (e : Entry) : Bool :=
  e.key?.any (·.isDotted) || (!e.holdsTables && !e.isBlank)

def Head.opening (head : Head) (key : Key) (path : List Char) (entries : List Entry) : List Char :=
  let isHeaded := !head.isPassed || (!key.isDotted && entries.any Entry.needsHeader)
  if isHeaded then head.line path entries
  else if head.margin.indent == ['\n'] then ['\n']
  else []

mutual

def writeEntry (p : Place) (done : List Char) : Entry → List Char
  | .blank text => text
  | .note margin => margin.indent ++ margin.comment ++ margin.ending
  | .value key margin _ text =>
    margin.indent ++ p.valuePath ++ key.text ++ key.separator ++ text ++ margin.close
  | .table key head entries =>
    let path := head.path?.getD (p.tablePath (head.isPassed && key.isDotted) ++ key.text)
    p.headerGap done head.margin ++
      writeEntries (.table key.isDotted path) (head.opening key path entries) entries
  | .tables key margin items =>
    p.headerGap done margin ++ writeItems (p.arrayPath ++ key.text) items

def writeEntries (p : Place) (done : List Char) : List Entry → List Char
  | [] => done
  | e :: rest => writeEntries p (done ++ writeEntry p done e) rest

def writeItems (path : List Char) : List (Head × List Entry) → List Char
  | [] => []
  | item :: rest => writeItem path item ++ writeItems path rest

def writeItem (path : List Char) : Head × List Entry → List Char
  | (head, entries) =>
    writeEntries (.item path) (if head.isPassed then [] else head.itemLine path) entries

end

end FormatSettings.Toml.Verbatim
