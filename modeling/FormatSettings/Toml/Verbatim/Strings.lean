import FormatSettings.Toml.Strings

namespace FormatSettings.Toml.Verbatim

def readHex? (count code : Nat) (cs : List Char) : Option (Nat × List Char) :=
  match count, cs with
  | 0, rest => some (code, rest)
  | count + 1, c :: rest => (hexValue? c).bind fun d => readHex? count (16 * code + d) rest
  | _ + 1, [] => none

def readEscape? : List Char → Option (Char × List Char)
  | 'e' :: rest => some ('\x1b', rest)
  | 'x' :: rest => readCode? 2 0 rest
  | 'U' :: rest =>
    (readHex? 8 0 rest).bind fun (code, rest) =>
      if code.isValidChar then some (Char.ofNat code, rest)
      else if code < 0x110000 then some ('\ufffd', rest)
      else none
  | cs => Toml.readEscape? cs

def isLineSpace (c : Char) : Bool :=
  isLineBlank c || c == '\n' || c == '\r'

def skipFold? (cs : List Char) : Option (List Char) :=
  if (cs.takeWhile isLineSpace).contains '\n' then some (cs.dropWhile isLineSpace) else none

def skipLines? (quote : Char) (fuel : Nat) (cs : List Char) : Option (List Char) :=
  match fuel, cs with
  | fuel + 1, c :: rest =>
    match closing? quote cs with
    | some (_, rest) => some rest
    | none =>
      if c == '\\' && quote == '"' then
        match skipFold? rest with
        | some rest => skipLines? quote fuel rest
        | none => (readEscape? rest).bind fun (_, rest) => skipLines? quote fuel rest
      else if isControl c && !isLineSpace c then none
      else skipLines? quote fuel rest
  | _, _ => none

def readText? (quote : Char) (fuel : Nat) (cs : List Char) : Option (List Char × List Char) :=
  match fuel, cs with
  | fuel + 1, c :: rest =>
    if c == quote then some ([], rest)
    else if isControl c then none
    else if c == '\\' && quote == '"' then
      (readEscape? rest).bind fun (c, rest) =>
        (readText? quote fuel rest).map fun (text, rest) => (c :: text, rest)
    else (readText? quote fuel rest).map fun (text, rest) => (c :: text, rest)
  | _, _ => none

def skipString? : List Char → Option (List Char)
  | a :: b :: c :: rest =>
    if a == b && b == c then skipLines? a (rest.length + 1) rest
    else (readText? a (rest.length + 3) (b :: c :: rest)).map (·.2)
  | a :: rest => (readText? a (rest.length + 1) rest).map (·.2)
  | [] => none

end FormatSettings.Toml.Verbatim
