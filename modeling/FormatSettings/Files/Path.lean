namespace FormatSettings

structure Path where
  slashes : Nat
  names : List String
  deriving Repr, DecidableEq

namespace Path

def split (s : String) : List String :=
  (s.toList.splitOn '/').map String.ofList

def leadingSlashes (s : String) : Nat :=
  match (s.toList.takeWhile (· == '/')).length with
  | 0 => 0
  | 2 => 2
  | _ => 1

def ofText (s : String) : Path where
  slashes := leadingSlashes s
  names := (split s).filter fun n => !n.isEmpty && n != "."

def isAbsolute (p : Path) : Bool :=
  p.slashes != 0

def toText (p : Path) : String :=
  let front := String.ofList (List.replicate p.slashes '/')
  if !p.isAbsolute && p.names.isEmpty then "." else front ++ "/".intercalate p.names

def name (p : Path) : String :=
  p.names.getLast?.getD ""

def ofNames (names : List String) : Path :=
  ⟨1, names⟩

def joined (base p : Path) : Path :=
  if p.isAbsolute then p else ⟨base.slashes, base.names ++ p.names⟩

def hasNull (p : Path) : Bool :=
  p.names.any (·.toList.contains '\x00')

end Path

end FormatSettings
