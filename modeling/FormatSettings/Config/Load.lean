import FormatSettings.Config.Reading
import FormatSettings.Files.Disk

/-!
Config files: read, decoded and taken as a layer of settings. A file that cannot be read or holds no
document is reported and counts as empty.
-/

namespace FormatSettings

def configName : String := "polisher.toml"

def sharedConfigName : String := "pyproject.toml"

namespace Config

def faultText (p : Path) (f : FileFault) : String :=
  "Cannot read config file " ++ p.toText ++ ": [Errno " ++ Text.showNat f.number ++ "] " ++
    f.text ++ ": " ++ Text.quote p.toText

def invalidText (p : Path) : String :=
  "Invalid TOML in " ++ p.toText ++ ": ..."

variable [Host]

def parse? (cs : List Char) : Option Table :=
  (Host.read cs).toOption

def load (d : Disk) (p : Path) : Report Table :=
  if p.hasNull then Report.fail (.value .nullInPath)
  else match d.read p with
    | .error f => do
      Report.note .error (faultText p f)
      return []
    | .ok bytes => match decodeText? bytes with
      | none => Report.fail (.notUnicode p.toText)
      | some cs => match Host.read cs with
        | .ok t => pure t
        | .error .rejected => do
          Report.note .error (invalidText p)
          return []
        | .error (.escaped error) => Report.fail (.foreign error)

def ownTable (t : Table) : Table :=
  (t.tableAt Key.tool).tableAt Key.program

/-- The layer of a config file; none for a shared file without settings of this program. -/
def loadDraft (d : Disk) (p : Path) : Report (Option Draft) := do
  Report.debug ("Creating MutableFormatterOptions from TOML config: " ++ p.toText)
  let t ← load d p
  if p.name == sharedConfigName then
    let own := ownTable t
    if own.isEmpty then
      Report.note .error ("[tool.polisher] section missing or malformed in " ++ p.toText)
      return none
    else return some (← Draft.ofTable own (some p.toText))
  else return some (← Draft.ofTable t (some p.toText))

end Config

end FormatSettings
