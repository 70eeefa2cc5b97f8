import FormatSettings.Profile.Lookup
import FormatSettings.Text.UpperCase

namespace FormatSettings.LineEnding

def ofNewlineValue? (v : Value) : Option LineEnding :=
  v.asText?.bind ofNewline?

def ofName? (s : String) : Option LineEnding :=
  let name := String.ofList (Text.upper (Text.strip s.toList))
  all.find? (·.name == name)

def ofNameValue? (v : Value) : Option LineEnding :=
  v.asText?.bind ofName?

def unknownText (v : Value) (source : String) : Message where
  text := "Ignoring unknown line ending " ++ v.shown ++ sourceSuffix source ++
    " (allowed values: " ++ allTokens ++ ")"
  depth := v.depth

def ofToken (v : Value) (source : String) : Report (Option LineEnding) :=
  match v with
  | .null => pure none
  | v => match (ofNewlineValue? v).or (ofNameValue? v) with
    | some e => pure (some e)
    | none => do
      Report.warn (unknownText v source)
      return none

end FormatSettings.LineEnding
