import FormatSettings.Config.Load

/-!
The nearest config file: the first on the way from a directory up to the root. A shared config file
counts only if it has a table for this program.
-/

namespace FormatSettings.Config

def namesProgram (t : Table) : Bool :=
  (t.tableAt Key.tool).hasKey Key.program

variable [Host]

def fileIn (d : Disk) (directory : List String) : Report (Option Path) := do
  let own := Path.ofNames (directory ++ [configName])
  let shared := Path.ofNames (directory ++ [sharedConfigName])
  if ← Report.ofExcept (d.isFile own) then return some own
  else if ← Report.ofExcept (d.isFile shared) then do
    let t ← load d shared
    return if namesProgram t then some shared else none
  else return none

def firstIn (d : Disk) : List (List String) → Report (Option Path)
  | [] => pure none
  | directory :: rest => do
    match ← fileIn d directory with
    | some p => do
      Report.debug ("Discovered config file: " ++ p.toText)
      return some p
    | none => firstIn d rest

def upwardFrom (above : List String) : List String → List (List String)
  | [] => [above]
  | name :: names => upwardFrom (above ++ [name]) names ++ [above]

def upward (directory : List String) : List (List String) :=
  upwardFrom [] directory

def startDirectory (d : Disk) (place : List String) : Except Failure (List String) :=
  (d.isFile (Path.ofNames place)).map fun found => if found then place.dropLast else place

def discover (d : Disk) (start : Path) : Report (Option Path) := do
  if start.hasNull then Report.fail (.value .nullInPath)
  let place ← Report.ofExcept (d.resolve start)
  let directory ← Report.ofExcept (startDirectory d place)
  firstIn d (upward directory)

end FormatSettings.Config
