import FormatSettings.Toml.Document
import FormatSettings.Toml.Verbatim.Document
import FormatSettings.Toml.Verbatim.Moved
import FormatSettings.Toml.Verbatim.Shape

/-!
A document nested under a table. The table has a header of its own, the entries of the document stand
behind it as they are written, and their headers get its path in front. Blanks and comments between
the entries of the document itself are dropped.
-/

namespace FormatSettings.Toml

open Verbatim

def nestChars (path : List String) (cs : List Char) : Except Failure (List Char) := do
  let entries ← read cs
  let parts ← topEntries (nestingLimit cs) entries
  return writeEntries .document [] (behindPath path (parts.foldl place []))

def splitDots : List Char → List Char × List (List Char)
  | [] => ([], [])
  | c :: rest =>
    let (part, parts) := splitDots rest
    if c == '.' then ([], part :: parts) else (c :: part, parts)

def pathParts (cs : List Char) : List (List Char) :=
  let (part, parts) := splitDots cs
  (part :: parts).filter (!·.isEmpty)

def nest (doc path : String) : Except Failure String :=
  let parts := pathParts path.toList
  if parts.isEmpty then .error (.value (.sectionWithoutName path))
  else (nestChars (parts.map String.ofList) doc.toList).map String.ofList

def unifyBreaks : List Char → List Char
  | '\r' :: '\n' :: rest => '\n' :: unifyBreaks rest
  | c :: rest => c :: unifyBreaks rest
  | [] => []

/-- Reads a document in which a carriage return stands only before a line feed. -/
def readUnified? (cs : List Char) : Option Table :=
  let cs := unifyBreaks cs
  if cs.contains '\r' then none else parse? cs

def nestTable (doc path : String) : Except Failure Table := do
  let s ← nest doc path
  match readUnified? s.toList with
  | some t => return t
  | none => throw .notReadBack

end FormatSettings.Toml
