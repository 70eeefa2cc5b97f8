import FormatSettings.Failure
import FormatSettings.Files.Tree

/-!
A disk: a tree of files and the directory in which a program works.
-/

namespace FormatSettings

structure Disk where
  tree : FileTree
  here : List String

namespace Disk

def baseOf (d : Disk) (p : Path) : List String :=
  if p.isAbsolute then [] else d.here

def pathLimit : Nat := 4096

variable [Host]

def statSteps (d : Disk) (size : Nat) (base steps : List String) : Except FileFault FileNode :=
  if pathLimit ≤ size then .error .nameTooLong else d.tree.walk FileTree.linkLimit base steps

def stat (d : Disk) (p : Path) : Except FileFault FileNode :=
  d.statSteps p.toText.utf8ByteSize (d.baseOf p) p.names

def statText (d : Disk) (s : String) : Except FileFault FileNode :=
  if s.isEmpty then .error .missing
  else d.statSteps s.utf8ByteSize (d.baseOf (Path.ofText s)) (FileTree.stepsOf s)

/-- A file stands at a path. Of the reasons why none is found only two are failures: too long a name, and
a directory that may not be looked into. -/
def isFile (d : Disk) (p : Path) : Except Failure Bool :=
  if p.hasNull then .ok false
  else match d.stat p with
    | .ok (.file _) => .ok true
    | .error .nameTooLong => .error (.pathTooLong p.toText)
    | .error .accessDenied => .error (.accessDenied p.toText)
    | _ => .ok false

def read (d : Disk) (p : Path) : Except FileFault ByteArray :=
  match d.stat p with
  | .ok (.file bytes) => .ok bytes
  | .ok _ => .error .isDirectory
  | .error f => .error f

def resolve (d : Disk) (p : Path) : Except Failure (List String) :=
  let place := d.tree.resolve (d.baseOf p) p.names
  match d.stat (Path.ofNames place) with
  | .error .tooManyLinks => .error (.linkLoop p.toText)
  | _ => .ok place

end Disk

def joinBreaks : List Char → List Char
  | '\r' :: '\n' :: rest => '\n' :: joinBreaks rest
  | '\r' :: rest => '\n' :: joinBreaks rest
  | c :: rest => c :: joinBreaks rest
  | [] => []

def decodeText? (bytes : ByteArray) : Option (List Char) :=
  (String.fromUTF8? bytes).map fun s => joinBreaks s.toList

end FormatSettings
