import FormatSettings.Config.Discovery

namespace FormatSettings.Config

variable [Host]

def loadAll (d : Disk) : List Path → Report (List Draft)
  | [] => pure []
  | p :: rest => do
    let layer ← loadDraft d p
    let layers ← loadAll d rest
    return layer.toList ++ layers

def discoveredLayers (d : Disk) (start : Path) : Report (List Draft) := do
  match ← discover d start with
  | none => return []
  | some p => loadAll d [p]

def mergeAll (layers : List Draft) : Draft :=
  layers.foldl Draft.merge {}

/-- The merged layers: the nearest config file unless discovery is off, then the extra files. -/
def loadMerged (d : Disk) (start : Path) (noDiscovery : Bool) (extra : List Path) :
    Report Draft := do
  let found ← if noDiscovery then pure [] else discoveredLayers d start
  let more ← loadAll d extra
  return mergeAll (found ++ more)

end FormatSettings.Config
