/-!
Logical lines of a document. A line ends at a line break outside brackets and multi-line strings, and
keeps that line break. Each line holds one header, one pair of a key and a value, or nothing.
-/

namespace FormatSettings.Toml

/-- What the characters of a line so far leave open, within `depth` brackets. Quotes are single or
double; a multi-line string counts the closing quotes met so far, and after it two more quotes may
follow that belong to it. -/
inductive Mode
  | plain (depth : Nat)
  | comment (depth : Nat)
  | opened (quote : Char) (depth : Nat)
  | twice (quote : Char) (depth : Nat)
  | single (quote : Char) (depth : Nat) (isEscaped : Bool)
  | multi (quote : Char) (depth : Nat) (quotes : Nat) (isEscaped : Bool)
  | closed (quote : Char) (depth : Nat) (more : Nat)
  deriving Repr, DecidableEq

def isQuote (c : Char) : Bool :=
  c == '"' || c == '\x27'

namespace Mode

def start : Mode := .plain 0

def stepPlain (depth : Nat) (c : Char) : Mode :=
  if c == '#' then .comment depth
  else if isQuote c then .opened c depth
  else if c == '[' || c == '\x7b' then .plain (depth + 1)
  else if c == ']' || c == '\x7d' then .plain (depth - 1)
  else .plain depth

def stepSingle (quote : Char) (depth : Nat) (c : Char) : Mode :=
  if c == quote then .plain depth
  else .single quote depth (quote == '"' && c == '\\')

def stepMulti (quote : Char) (depth quotes : Nat) (c : Char) : Mode :=
  if c == quote then
    if quotes == 2 then .closed quote depth 2 else .multi quote depth (quotes + 1) false
  else .multi quote depth 0 (quote == '"' && c == '\\')

def step : Mode → Char → Mode
  | .plain depth, c => stepPlain depth c
  | .comment depth, c => if c == '\n' then .plain depth else .comment depth
  | .opened quote depth, c =>
    if c == quote then .twice quote depth else stepSingle quote depth c
  | .twice quote depth, c =>
    if c == quote then .multi quote depth 0 false else stepPlain depth c
  | .single quote depth isEscaped, c =>
    if isEscaped then .single quote depth false else stepSingle quote depth c
  | .multi quote depth quotes isEscaped, c =>
    if isEscaped then .multi quote depth 0 false else stepMulti quote depth quotes c
  | .closed quote depth more, c =>
    if c == quote && 0 < more then .closed quote depth (more - 1) else stepPlain depth c

def ends : Mode → Bool
  | .plain depth => depth == 0
  | .comment depth => depth == 0
  | .opened _ _ => true
  | .twice _ depth => depth == 0
  | .single _ _ _ => true
  | .multi _ _ _ _ => false
  | .closed _ depth _ => depth == 0

end Mode

def splitFrom : Mode → List Char → List Char × List (List Char)
  | _, [] => ([], [])
  | mode, c :: rest =>
    if c == '\n' && mode.ends then
      let (line, lines) := splitFrom .start rest
      ([c], line :: lines)
    else
      let (line, lines) := splitFrom (mode.step c) rest
      (c :: line, lines)

def splitLines (cs : List Char) : List (List Char) :=
  let (line, lines) := splitFrom .start cs
  line :: lines

end FormatSettings.Toml
