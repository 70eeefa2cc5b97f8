import FormatSettings.Toml.BareKey
import FormatSettings.Toml.Node
import FormatSettings.Toml.Strings
import FormatSettings.Toml.Words

namespace FormatSettings.Toml

def readKey? (cs : List Char) : Option (String × List Char) :=
  match cs with
  | '"' :: rest => (readBasic? (rest.length + 1) rest).map fun (s, rest) => (String.ofList s, rest)
  | '\x27' :: rest => (readLiteral? rest).map fun (s, rest) => (String.ofList s, rest)
  | _ =>
    let word := cs.takeWhile isBareKeyChar
    if word.isEmpty then none else some (String.ofList word, cs.dropWhile isBareKeyChar)

def readPath? : Nat → List Char → Option (List String × List Char)
  | 0, _ => none
  | fuel + 1, cs =>
    (readKey? cs).bind fun (key, rest) =>
      match rest.dropWhile isLineBlank with
      | '.' :: more =>
        (readPath? fuel (more.dropWhile isLineBlank)).map fun (path, rest) => (key :: path, rest)
      | rest => some ([key], rest)

def skipFiller? : (inComment : Bool) → List Char → Option (List Char)
  | _, [] => some []
  | _, '\n' :: rest => skipFiller? false rest
  | _, '\r' :: '\n' :: rest => skipFiller? false rest
  | true, c :: rest => if isControl c then none else skipFiller? true rest
  | false, c :: rest =>
    if isLineBlank c then skipFiller? false rest
    else if c == '#' then skipFiller? true rest
    else some (c :: rest)

mutual

def readValue? (fuel : Nat) (cs : List Char) : Option (Value × List Char) :=
  match fuel, cs with
  | fuel + 1, c :: rest =>
    if c == '"' || c == '\x27' then
      (readString? cs).map fun (s, rest) => (.text (String.ofList s), rest)
    else if c == '[' then
      (readItems? fuel rest).map fun (vs, rest) => (.list vs, rest)
    else if c == '\x7b' then
      match rest.dropWhile isLineBlank with
      | '\x7d' :: rest => some (.table [], rest)
      | body => (readPairs? fuel body).bind fun (pairs, rest) =>
        (inlineTable? pairs).map fun v => (v, rest)
    else
      let (word, rest) := takeWord cs
      (readWord? word).map fun v => (v, rest)
  | _, _ => none

def readItems? (fuel : Nat) (cs : List Char) : Option (List Value × List Char) :=
  match fuel with
  | 0 => none
  | fuel + 1 =>
    (skipFiller? false cs).bind fun
      | ']' :: rest => some ([], rest)
      | cs =>
        (readValue? fuel cs).bind fun (v, rest) =>
          (skipFiller? false rest).bind fun
            | ']' :: rest => some ([v], rest)
            | ',' :: rest => (readItems? fuel rest).map fun (vs, rest) => (v :: vs, rest)
            | _ => none

def readPairs? (fuel : Nat) (cs : List Char) :
    Option (List (List String × Value) × List Char) :=
  match fuel with
  | 0 => none
  | fuel + 1 =>
    (readPath? fuel cs).bind fun (path, rest) =>
      match rest with
      | '=' :: rest =>
        (readValue? fuel (rest.dropWhile isLineBlank)).bind fun (v, rest) =>
          match rest.dropWhile isLineBlank with
          | '\x7d' :: rest => some ([(path, v)], rest)
          | ',' :: rest =>
            (readPairs? fuel (rest.dropWhile isLineBlank)).map fun (pairs, rest) =>
              ((path, v) :: pairs, rest)
          | _ => none
      | _ => none

end

def isLineEnd : (inComment : Bool) → List Char → Bool
  | _, [] => true
  | _, ['\n'] => true
  | _, ['\r', '\n'] => true
  | true, c :: rest => !isControl c && isLineEnd true rest
  | false, c :: rest =>
    if isLineBlank c then isLineEnd false rest else c == '#' && isLineEnd true rest

inductive Statement
  | nothing
  | header (isItem : Bool) (path : List String)
  | pair (path : List String) (value : Value)

def readHeader? (isItem : Bool) (cs : List Char) : Option Statement :=
  (readPath? (cs.length + 1) (cs.dropWhile isLineBlank)).bind fun (path, rest) =>
    match isItem, rest with
    | false, ']' :: rest => if isLineEnd false rest then some (.header false path) else none
    | true, ']' :: ']' :: rest => if isLineEnd false rest then some (.header true path) else none
    | _, _ => none

def readPair? (cs : List Char) : Option Statement :=
  (readPath? (cs.length + 1) cs).bind fun (path, rest) =>
    match rest with
    | '=' :: rest =>
      (readValue? (rest.length + 1) (rest.dropWhile isLineBlank)).bind fun (v, rest) =>
        if isLineEnd false rest then some (.pair path v) else none
    | _ => none

def readLine? (line : List Char) : Option Statement :=
  if isLineEnd false line then some .nothing
  else
    match line.dropWhile isLineBlank with
    | '[' :: '[' :: rest => readHeader? true rest
    | '[' :: rest => readHeader? false rest
    | cs => readPair? cs

end FormatSettings.Toml
