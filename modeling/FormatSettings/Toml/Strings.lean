namespace FormatSettings.Toml

def isControl (c : Char) : Bool :=
  (c.toNat < 32 && c != '\t') || c.toNat == 127

def hexValue? (c : Char) : Option Nat :=
  if c.isDigit then some (c.toNat - 48)
  else if 'a' ≤ c && c ≤ 'f' then some (c.toNat - 87)
  else if 'A' ≤ c && c ≤ 'F' then some (c.toNat - 55)
  else none

def readCode? (count code : Nat) (cs : List Char) : Option (Char × List Char) :=
  match count, cs with
  | 0, rest => if code.isValidChar then some (Char.ofNat code, rest) else none
  | count + 1, c :: rest => (hexValue? c).bind fun d => readCode? count (16 * code + d) rest
  | _ + 1, [] => none

def readEscape? : List Char → Option (Char × List Char)
  | 'b' :: rest => some ('\x08', rest)
  | 't' :: rest => some ('\t', rest)
  | 'n' :: rest => some ('\n', rest)
  | 'f' :: rest => some ('\x0c', rest)
  | 'r' :: rest => some ('\r', rest)
  | '"' :: rest => some ('"', rest)
  | '\\' :: rest => some ('\\', rest)
  | 'u' :: rest => readCode? 4 0 rest
  | 'U' :: rest => readCode? 8 0 rest
  | _ => none

def readBasic? (fuel : Nat) (cs : List Char) : Option (List Char × List Char) :=
  match fuel, cs with
  | _ + 1, '"' :: rest => some ([], rest)
  | fuel + 1, '\\' :: rest =>
    (readEscape? rest).bind fun (c, rest) =>
      (readBasic? fuel rest).map fun (text, rest) => (c :: text, rest)
  | fuel + 1, c :: rest =>
    if isControl c then none
    else (readBasic? fuel rest).map fun (text, rest) => (c :: text, rest)
  | _, _ => none

def readLiteral? : List Char → Option (List Char × List Char)
  | [] => none
  | c :: rest =>
    if c == '\x27' then some ([], rest)
    else if isControl c then none
    else (readLiteral? rest).map fun (text, rest) => (c :: text, rest)

def mayStandInLines (c : Char) (rest : List Char) : Bool :=
  !isControl c || c == '\n' || (c == '\r' && rest.head? == some '\n')

def isLineBlank (c : Char) : Bool :=
  c == ' ' || c == '\t'

def skipBlankLines : List Char → List Char
  | '\r' :: '\n' :: rest => skipBlankLines rest
  | c :: rest => if isLineBlank c || c == '\n' then skipBlankLines rest else c :: rest
  | [] => []

def skipLineEnd? (cs : List Char) : Option (List Char) :=
  match cs.dropWhile isLineBlank with
  | '\n' :: rest => some (skipBlankLines rest)
  | '\r' :: '\n' :: rest => some (skipBlankLines rest)
  | _ => none

def closing? (quote : Char) (cs : List Char) : Option (List Char × List Char) :=
  let count := (cs.takeWhile (· == quote)).length
  if count < 3 then none
  else
    let inside := min (count - 3) 2
    some (List.replicate inside quote, cs.drop (inside + 3))

def readBasicLines? (fuel : Nat) (cs : List Char) : Option (List Char × List Char) :=
  match fuel, cs with
  | fuel + 1, c :: rest =>
    match closing? '"' cs with
    | some (quotes, rest) => some (quotes, rest)
    | none =>
      if c == '\\' then
        match skipLineEnd? rest with
        | some rest => readBasicLines? fuel rest
        | none =>
          (readEscape? rest).bind fun (e, rest) =>
            (readBasicLines? fuel rest).map fun (text, rest) => (e :: text, rest)
      else if mayStandInLines c rest then
        (readBasicLines? fuel rest).map fun (text, rest) => (c :: text, rest)
      else none
  | _, _ => none

def readLiteralLines? : List Char → Option (List Char × List Char)
  | [] => none
  | c :: rest =>
    match closing? '\x27' (c :: rest) with
    | some (quotes, rest) => some (quotes, rest)
    | none =>
      if mayStandInLines c rest then
        (readLiteralLines? rest).map fun (text, rest) => (c :: text, rest)
      else none

def skipFirstBreak : List Char → List Char
  | '\n' :: rest => rest
  | '\r' :: '\n' :: rest => rest
  | cs => cs

def readString? : List Char → Option (List Char × List Char)
  | '"' :: '"' :: '"' :: rest =>
    let body := skipFirstBreak rest
    readBasicLines? (body.length + 1) body
  | '\x27' :: '\x27' :: '\x27' :: rest => readLiteralLines? (skipFirstBreak rest)
  | '"' :: rest => readBasic? (rest.length + 1) rest
  | '\x27' :: rest => readLiteral? rest
  | _ => none

end FormatSettings.Toml
