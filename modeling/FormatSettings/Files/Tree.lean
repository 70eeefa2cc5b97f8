import FormatSettings.Files.Path
import FormatSettings.Host

/-!
A tree of files as data: files with their bytes, directories, and symbolic links. A place is reached
by a list of names from the root; every place on the way to an entry is a directory.
-/

namespace FormatSettings

inductive FileNode
  | file (bytes : ByteArray)
  | directory
  | link (target : String)

structure FileTree where
  entries : List (List String × FileNode)

inductive FileFault
  | missing
  | notDirectory
  | isDirectory
  | tooManyLinks
  | nameTooLong
  | accessDenied
  deriving Repr, DecidableEq

namespace FileFault

def number : FileFault → Nat
  | .missing => 2
  | .accessDenied => 13
  | .notDirectory => 20
  | .isDirectory => 21
  | .nameTooLong => 36
  | .tooManyLinks => 40

def text : FileFault → String
  | .missing => "No such file or directory"
  | .accessDenied => "Permission denied"
  | .notDirectory => "Not a directory"
  | .isDirectory => "Is a directory"
  | .nameTooLong => "File name too long"
  | .tooManyLinks => "Too many levels of symbolic links"

end FileFault

namespace FileTree

def empty : FileTree := ⟨[]⟩

def node? (t : FileTree) (place : List String) : Option FileNode :=
  match t.entries.lookup place with
  | some n => some n
  | none =>
    if place.isEmpty || t.entries.any fun e => place.isPrefixOf e.1 then some .directory else none

def linkCount (t : FileTree) : Nat :=
  t.entries.countP fun e => match e.2 with
    | .link _ => true
    | _ => false

inductive Stop
  | fault (f : FileFault)
  | found (n : FileNode)
  | atLink (base : List String) (target : String) (rest : List String)

def nameLimit : Nat := 255

variable [Host]

def descend (t : FileTree) (base : List String) : List String → Stop
  | [] => .found .directory
  | name :: rest =>
    if Host.isSealed base then .fault .accessDenied
    else if name == "." then t.descend base rest
    else if name == ".." then t.descend base.dropLast rest
    else if nameLimit < name.utf8ByteSize then .fault .nameTooLong
    else match t.node? (base ++ [name]) with
      | none => .fault .missing
      | some .directory => t.descend (base ++ [name]) rest
      | some (.file bytes) => if rest.isEmpty then .found (.file bytes) else .fault .notDirectory
      | some (.link target) => .atLink base target rest

def stepsOf (s : String) : List String :=
  let names := (Path.split s).filter (!·.isEmpty)
  if s.endsWith "/" then names ++ ["."] else names

def startFor (base : List String) (target : String) : List String :=
  if target.startsWith "/" then [] else base

def linkLimit : Nat := 40

def walk (t : FileTree) : (links : Nat) → (base names : List String) → Except FileFault FileNode
  | links, base, names =>
    match t.descend base names with
    | .fault f => .error f
    | .found n => .ok n
    | .atLink place target rest =>
      match links with
      | 0 => .error .tooManyLinks
      | links + 1 => t.walk links (startFor place target) (stepsOf target ++ rest)

inductive Resolution
  | place (names : List String)
  | stuck (names : List String)

def joinNames (place : List String) : List String → List String
  | "" :: name :: rest => name :: rest
  | names => place ++ names

def resolveNames (t : FileTree) (follow : (base place : List String) → String → Resolution)
    (base : List String) : List String → Resolution
  | [] => .place base
  | name :: rest =>
    if name == "." || name.isEmpty then t.resolveNames follow base rest
    else if name == ".." then t.resolveNames follow base.dropLast rest
    else match if Host.isSealed base then none else t.node? (base ++ [name]) with
      | some (.link target) => match follow base (base ++ [name]) target with
        | .place place => t.resolveNames follow place rest
        | .stuck place => .stuck (joinNames place rest)
      | _ => t.resolveNames follow (base ++ [name]) rest

def resolveLink (t : FileTree) : (depth : Nat) → (followed : List (List String)) →
    (base place : List String) → (target : String) → Resolution
  | 0, _, _, place, _ => .stuck place
  | depth + 1, followed, base, place, target =>
    if followed.contains place then .stuck place
    else t.resolveNames (t.resolveLink depth (place :: followed)) (startFor base target)
      (Path.split target)

def plainNames (names : List String) : List String :=
  names.foldl (fun place name =>
    if name == "." || name.isEmpty then place
    else if name == ".." then place.dropLast
    else place ++ [name]) []

def resolve (t : FileTree) (base names : List String) : List String :=
  match t.resolveNames (t.resolveLink (t.linkCount + 1) []) base names with
  | .place place => place
  | .stuck names => plainNames names

end FileTree

end FormatSettings
