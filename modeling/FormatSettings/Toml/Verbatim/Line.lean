import FormatSettings.Toml.Verbatim.Gather
import FormatSettings.Toml.Verbatim.Strings
import FormatSettings.Toml.Verbatim.Words

namespace FormatSettings.Toml.Verbatim

def textBefore (rest cs : List Char) : List Char :=
  cs.take (cs.length - rest.length)

def readKey? (cs : List Char) : Option (Key × List Char) :=
  match cs.dropWhile isLineBlank with
  | '"' :: '"' :: '"' :: _ => none
  | '\x27' :: '\x27' :: '\x27' :: _ => none
  | c :: body =>
    if c == '"' || c == '\x27' then
      (readText? c (body.length + 1) body).map fun (name, rest) =>
        let rest := rest.dropWhile isLineBlank
        (⟨String.ofList name, textBefore rest cs, [], false⟩, rest)
    else
      let isMore (c : Char) : Bool := isBareKeyChar c || isLineBlank c
      let rest := (c :: body).dropWhile isMore
      let name := Text.stripBy isLineBlank ((c :: body).takeWhile isMore)
      if name.isEmpty || name.contains ' ' then none
      else some (⟨String.ofList name, textBefore rest cs, [], false⟩, rest)
  | [] => none

def readKeys? : (fuel : Nat) → List Char → Option (List Key × List Char)
  | 0, _ => none
  | fuel + 1, cs =>
    (readKey? cs).bind fun (key, rest) =>
      match rest with
      | '.' :: more => (readKeys? fuel more).map fun (keys, rest) => (key :: keys, rest)
      | rest => some ([key], rest)

def readSeparator? (cs : List Char) : Option (List Char × List Char) :=
  let isPart (c : Char) : Bool := c == '=' || isLineBlank c
  let separator := cs.takeWhile isPart
  if separator.count '=' == 1 then some (separator, cs.dropWhile isPart) else none

def isCommentEnd (c : Char) : Bool :=
  c == '\n' || c == '\r'

def skipSpace? : (inComment : Bool) → List Char → Option (List Char)
  | _, [] => some []
  | true, c :: rest =>
    if isCommentEnd c then skipSpace? false rest
    else if isControl c then none
    else skipSpace? true rest
  | false, c :: rest =>
    if isLineSpace c then skipSpace? false rest
    else if c == '#' then skipSpace? true rest
    else some (c :: rest)

def separateLast (separator : List Char) : List Key → List Key
  | [] => []
  | [key] => [{ key with separator := separator }]
  | key :: keys => key :: separateLast separator keys

structure Written where
  form : Form
  text : List Char
  gap : List Char

def takeWord? (word cs : List Char) : Option (List Char) :=
  if word.isPrefixOf cs then some (cs.drop word.length) else none

def expect {α : Type} (a? : Option α) : Except Failure α :=
  match a? with
  | some a => .ok a
  | none => .error .invalidDocument

mutual

def readWritten (fuel : Nat) (cs : List Char) : Except Failure (Written × List Char) :=
  match fuel, cs with
  | fuel + 1, c :: rest => do
    if c == '"' || c == '\x27' then
      let rest ← expect (skipString? cs)
      return (⟨.other, textBefore rest cs, []⟩, rest)
    else if c == 't' then
      let rest ← expect (takeWord? ['t', 'r', 'u', 'e'] cs)
      return (⟨.flag, textBefore rest cs, []⟩, rest)
    else if c == 'f' then
      let rest ← expect (takeWord? ['f', 'a', 'l', 's', 'e'] cs)
      return (⟨.flag, textBefore rest cs, []⟩, rest)
    else if c == '[' then
      let rest ← skipItems fuel rest
      return (⟨.other, textBefore rest cs, []⟩, rest)
    else if c == '\x7b' then
      let rest ← skipPairs fuel [] rest
      return (⟨.braces, textBefore rest cs, []⟩, rest)
    else
      let (text, gap, rest) ← expect (readBare? cs)
      return (⟨.other, text, gap⟩, rest)
  | _, _ => .error .invalidDocument

def skipItems (fuel : Nat) (cs : List Char) : Except Failure (List Char) :=
  match fuel with
  | 0 => .error .invalidDocument
  | fuel + 1 => do
    match ← expect (skipSpace? false cs) with
    | ']' :: rest => return rest
    | cs =>
      let (_, rest) ← readWritten fuel cs
      match ← expect (skipSpace? false rest) with
      | ']' :: rest => return rest
      | ',' :: rest => skipItems fuel rest
      | _ => .error .invalidDocument

def skipPairs (fuel : Nat) (entries : List Entry) (cs : List Char) : Except Failure (List Char) :=
  match fuel with
  | 0 => .error .invalidDocument
  | fuel + 1 => do
    match ← expect (skipSpace? false cs) with
    | '\x7d' :: rest => return rest
    | cs =>
      let (keys, rest) ← expect (readKeys? (cs.length + 1) cs)
      let (separator, rest) ← expect (readSeparator? rest)
      let (w, rest) ← readWritten fuel rest
      let e ← expect (Entry.ofPath (separateLast separator keys) fun key => .value key {} w.form [])
      let entries ← add (4 * (heightOf entries + keys.length + 1)) true entries e
      match ← expect (skipSpace? false rest) with
      | '\x7d' :: rest => return rest
      | ',' :: rest => skipPairs fuel entries rest
      | _ => .error .invalidDocument

end

def readClose? (indent cs : List Char) : Option (Margin × List Char) :=
  let isGap (c : Char) : Bool := isLineBlank c || c == '\r'
  let gap := cs.takeWhile isGap
  match cs.dropWhile isGap with
  | [] => some (⟨indent, [], [], gap⟩, [])
  | '\n' :: rest => some (⟨indent, [], [], gap ++ ['\n']⟩, rest)
  | '#' :: body =>
    let comment := '#' :: body.takeWhile (!isCommentEnd ·)
    if comment.any isControl then none
    else match body.dropWhile (!isCommentEnd ·) with
      | '\r' :: '\n' :: rest => some (⟨indent, gap, comment, ['\r', '\n']⟩, rest)
      | c :: rest => some (⟨indent, gap, comment, [c]⟩, rest)
      | [] => some (⟨indent, gap, comment, []⟩, [])
  | _ => none

inductive Line
  | entry (e : Entry)
  | header (isItem : Bool) (keys : List Key) (margin? : Option Margin)
  | fault (failure : Failure)

def readPair (cs : List Char) : Except Failure (Entry × List Char) := do
  let indent := cs.takeWhile isLineBlank
  let (keys, rest) ← expect (readKeys? (cs.length + 1) (cs.dropWhile isLineBlank))
  let (separator, rest) ← expect (readSeparator? rest)
  let (w, rest) ← readWritten (rest.length + 1) rest
  let (margin, rest) ← expect (readClose? indent rest)
  let gap := if w.gap.isEmpty then margin.gap else w.gap
  let e ← expect (Entry.ofPath (separateLast separator keys) fun key =>
    .value key { margin with gap := gap } w.form w.text)
  return (e, rest)

def readHeaderClose? (isItem : Bool) (indent : List Char) : List Char → Option (Margin × List Char)
  | ']' :: rest => readClose? indent (if isItem then rest.drop 1 else rest)
  | _ => none

def readHeader (indent cs : List Char) : Line × List Char :=
  let (isItem, cs) := match cs with
    | '[' :: rest => (true, rest)
    | cs => (false, cs)
  match readKeys? (cs.length + 1) cs with
  | none => (.fault .invalidDocument, [])
  | some (keys, rest) =>
    match readHeaderClose? isItem indent rest with
    | some (margin, rest) => (.header isItem keys (some margin), rest)
    | none => (.header isItem keys none, [])

def readLine (cs : List Char) : Line × List Char :=
  let isLead (c : Char) : Bool := isLineBlank c || c == '\r'
  let lead := cs.takeWhile isLead
  match cs.dropWhile isLead with
  | [] => (.entry (.blank lead), [])
  | '\n' :: rest => (.entry (.blank (lead ++ ['\n'])), rest)
  | '[' :: rest => readHeader lead rest
  | c :: rest =>
    if c == '#' then
      match readClose? lead (c :: rest) with
      | some (margin, rest) => (.entry (.note margin), rest)
      | none => (.fault .invalidDocument, [])
    else
      match readPair cs with
      | .ok (e, rest) => (.entry e, rest)
      | .error failure => (.fault failure, [])

def readLines : (fuel : Nat) → List Char → List Line
  | 0, _ => []
  | _, [] => []
  | fuel + 1, cs =>
    let (line, rest) := readLine cs
    line :: readLines fuel rest

end FormatSettings.Toml.Verbatim
