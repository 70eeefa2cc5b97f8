namespace FormatSettings.Log

inductive Flag
  | leftAligned
  | signed
  | spaced
  | alternate
  | zeroFilled
  deriving Repr, DecidableEq

namespace Flag

def ofChar? : Char → Option Flag
  | '-' => some .leftAligned
  | '+' => some .signed
  | ' ' => some .spaced
  | '#' => some .alternate
  | '0' => some .zeroFilled
  | _ => none

end Flag

inductive Count
  | written (n : Nat)
  | taken
  deriving Repr, DecidableEq

inductive Selector
  | next
  | named (key : String)
  | notClosed
  deriving Repr, DecidableEq

/-- A place, with the letter of its conversion and the index of that letter if the pattern does not
end before. -/
structure Place where
  selector : Selector
  flags : List Flag
  width : Option Count
  precision : Option Count
  conversion : Option (Char × Nat)
  deriving Repr, DecidableEq

inductive Segment
  | char (c : Char)
  | place (p : Place)
  deriving Repr, DecidableEq

def closedPart? (depth : Nat) : List Char → Option (List Char)
  | [] => none
  | ')' :: rest => match depth with
    | 0 => some []
    | depth + 1 => (closedPart? depth rest).map (')' :: ·)
  | '(' :: rest => (closedPart? (depth + 1) rest).map ('(' :: ·)
  | c :: rest => (closedPart? depth rest).map (c :: ·)

def readSelector : List Char → Selector × List Char
  | '(' :: rest => match closedPart? 0 rest with
    | some key => (.named (String.ofList key), rest.drop (key.length + 1))
    | none => (.notClosed, [])
  | cs => (.next, cs)

def writtenNumber (digits : List Char) : Nat :=
  digits.foldl (fun n c => 10 * n + (c.toNat - 48)) 0

def readWidth (cs : List Char) : Option Count × List Char :=
  match cs with
  | '*' :: rest => (some .taken, rest)
  | _ =>
    let digits := cs.takeWhile Char.isDigit
    (if digits.isEmpty then none else some (.written (writtenNumber digits)),
      cs.dropWhile Char.isDigit)

def readPrecision : List Char → Option Count × List Char
  | '.' :: rest =>
    let (count, rest) := readWidth rest
    (some (count.getD (.written 0)), rest)
  | cs => (none, cs)

def dropSize : List Char → List Char
  | 'h' :: rest => rest
  | 'l' :: rest => rest
  | 'L' :: rest => rest
  | cs => cs

def readPlace (index : Nat) (cs : List Char) : Place × Nat :=
  let (selector, rest) := readSelector cs
  let flags := (rest.takeWhile fun c => (Flag.ofChar? c).isSome).filterMap Flag.ofChar?
  let (width, rest) := readWidth (rest.drop flags.length)
  let (precision, rest) := readPrecision rest
  match dropSize rest with
  | [] => (⟨selector, flags, width, precision, none⟩, cs.length)
  | c :: rest =>
    let length := cs.length - rest.length
    (⟨selector, flags, width, precision, some (c, index + length)⟩, length)

def segmentsFrom (index skip : Nat) : List Char → List Segment
  | [] => []
  | c :: rest => match skip with
    | skip + 1 => segmentsFrom (index + 1) skip rest
    | 0 =>
      if c != '%' then .char c :: segmentsFrom (index + 1) 0 rest
      else if rest.head? == some '%' then .char c :: segmentsFrom (index + 1) 1 rest
      else
        let (place, length) := readPlace index rest
        .place place :: segmentsFrom (index + 1) length rest

def segments (pattern : String) : List Segment :=
  segmentsFrom 0 0 pattern.toList

end FormatSettings.Log
