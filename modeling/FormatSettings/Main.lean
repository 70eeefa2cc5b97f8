import FormatSettings.CommandLine.Run

namespace FormatSettings

def namedConfigs : List String → List String
  | [] => []
  | word :: rest =>
    if word == "--config" then rest.take 1 ++ namedConfigs rest
    else if word.startsWith "--config=" then
      (word.drop "--config=".length).toString :: namedConfigs rest
    else namedConfigs rest

def discoveryPlaces (here : List String) : List (List String) :=
  (List.range (here.length + 1)).flatMap fun n =>
    [here.take n ++ [configName], here.take n ++ [sharedConfigName]]

def placeOf (here : List String) (p : Path) : List (List String) :=
  let start := if p.isAbsolute then [] else here
  (p.names.foldl (fun (place, seen) name =>
    let next := if name == ".." then place.dropLast else place ++ [name]
    (next, seen ++ [next])) (start, [])).2

def readNode? (place : List String) : IO (Option FileNode) := do
  try
    return some (.file (← IO.FS.readBinFile (Path.ofNames place).toText))
  catch
    | .inappropriateType .. => return some .directory
    | _ => return none

def readTree (places : List (List String)) : IO FileTree := do
  let nodes ← places.mapM fun place => return (place, ← readNode? place)
  return ⟨nodes.filterMap fun (place, node) => node.map (place, ·)⟩

end FormatSettings

open FormatSettings

def main (words : List String) : IO UInt32 := do
  let here := (Path.ofText (toString (← IO.currentDir))).names
  let places := (namedConfigs words).flatMap fun text => placeOf here (Path.ofText text)
  let tree ← readTree (discoveryPlaces here ++ places)
  let level ← IO.getEnv levelVariableName
  let run := CommandLine.Setting.run ⟨programName, level, ⟨tree, here⟩⟩ words
  IO.print run.output
  IO.eprint run.errorOutput
  return UInt32.ofNat run.ending.exitCode
