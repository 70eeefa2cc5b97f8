import FormatSettings.CommandLine.Request
import FormatSettings.CommandLine.Transcript
import FormatSettings.Config.Layers
import FormatSettings.Constants
import FormatSettings.Draft.Arguments
import FormatSettings.Toml.Nest
import FormatSettings.Toml.Render

namespace FormatSettings.CommandLine

namespace Request

def arguments (r : Request) (profile : Option Profile) (fixes : List Fix) : Table :=
  let int (o : Option Int) : Value := Value.ofOption .int o
  Table.arranged r.order
    [(Key.profile, Value.ofOption .profile profile), (Key.indent, int r.indent),
     (Key.pageWidth, int r.pageWidth),
     (Key.lineEnding, Value.ofOption (fun e => .text e.token) r.lineEnding),
     (Key.insertSpaces, Value.ofOption .bool r.insertSpaces), (Key.fixes, .list (fixes.map .fix)),
     (Key.blockIndent, int r.blockIndent), (Key.cascadeIndent, int r.cascadeIndent),
     (Key.expressionIndent, int r.expressionIndent),
     (Key.constructorInitializerIndent, int r.constructorInitializerIndent),
     (Key.sources, .tuple (r.configFiles.map .text)), (Key.noConfig, .bool r.noConfig),
     (Key.shared, .bool r.forSharedFile)]

def layersText (d : Draft) : Message :=
  .showing "Config layers: " (.list d.sources)

def options [Host] (r : Request) (disk : Disk) : Report Options := do
  let profile ← Report.ofExcept (Profile.validate (Value.ofOption .text r.profile))
  let fixes ← Report.ofExcept (Fix.validate (.list (r.fixes.map .text)))
  let layers ← Config.loadMerged disk (Path.ofNames disk.here) r.noConfig
    (r.configFiles.map Path.ofText)
  let draft ← layers.applyArguments (r.arguments profile fixes)
  Report.trace (layersText draft)
  draft.freeze

end Request

def dropLastBreaks (s : String) : String :=
  String.ofList (s.toList.reverse.dropWhile (· == '\n')).reverse

def documentText (forSharedFile : Bool) (o : Options) : Except Failure String := do
  let text ← Toml.render (← o.toTable)
  if forSharedFile then Toml.nest text sharedSection else return text

def echoMarked (text : String) : Transcript Unit := do
  .echo blockStart
  .echo (dropLastBreaks text)
  .echo blockEnd

def showConfig [Host] (r : Request) (disk : Disk) : Transcript Unit := do
  let options ← .ofReport (r.options disk)
  let text ← .ofReport (.ofExcept (documentText r.forSharedFile options))
  echoMarked text

end FormatSettings.CommandLine
