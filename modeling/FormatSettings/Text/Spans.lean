namespace FormatSettings.Text

def replaceSpansAfter (find : List Char → Option (Nat × List Char)) :
    (skip : Nat) → List Char → List Char
  | _, [] => []
  | skip + 1, _ :: rest => replaceSpansAfter find skip rest
  | 0, c :: rest =>
    match find (c :: rest) with
    | some (length, written) => written ++ replaceSpansAfter find (length - 1) rest
    | none => c :: replaceSpansAfter find 0 rest

def replaceSpans (find : List Char → Option (Nat × List Char)) (cs : List Char) : List Char :=
  replaceSpansAfter find 0 cs

def spanOf (text written cs : List Char) : Option (Nat × List Char) :=
  if text.isPrefixOf cs then some (text.length, written) else none

def occurs (part : List Char) : List Char → Bool
  | [] => part.isEmpty
  | c :: rest => part.isPrefixOf (c :: rest) || occurs part rest

def distanceOnLine? (text : List Char) : List Char → Option Nat
  | [] => none
  | c :: rest =>
    if text.isPrefixOf (c :: rest) then some 0
    else if c == '\n' then none
    else (distanceOnLine? text rest).map (· + 1)

end FormatSettings.Text
