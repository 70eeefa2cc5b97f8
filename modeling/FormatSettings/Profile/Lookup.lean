import FormatSettings.Report
import FormatSettings.Text.Token

namespace FormatSettings

def sourceSuffix (source : String) : String :=
  if source.isEmpty then "" else " in " ++ source

namespace Profile

def withIntCode? : Int → Option Profile
  | .ofNat n => withCode? n
  | .negSucc _ => none

def foldedNames (p : Profile) : List String :=
  [Text.foldToken p.label, Text.foldToken p.key]

def parseText? (s : String) : Except ValueFault (Option Profile) :=
  let token := Text.fold s.toList
  if Text.allDigits token then
    match Text.readDigits token with
    | .ok n => .ok (withCode? n)
    | .error fault => .error (.numeral fault)
  else .ok (all.find? (·.foldedNames.contains (String.ofList token)))

def parse? : Value → Except ValueFault (Option Profile)
  | .int i => .ok (withIntCode? i)
  | v => match v.asText? with
    | some s => parseText? s
    | none => .ok none

def ofCode : Value → Report Profile
  | .int i => match withIntCode? i with
    | some p => pure p
    | none => do
      Report.debug ("Unknown profile code " ++ Text.showInt i ++ "; using " ++ fallback.label)
      return fallback
  | _ => pure fallback

def ofLabel (v : Value) : Report Profile :=
  match v.asText? with
  | none => pure fallback
  | some s => match withLabel? s with
    | some p => pure p
    | none => do
      Report.debug
        ⟨"Unknown profile name " ++ v.shown ++ "; using " ++ fallback.label, v.depth⟩
      return fallback

def unknownText (v : Value) (source : String) : Message where
  text := "Unknown profile " ++ v.shown ++ sourceSuffix source ++ "; falling back to '" ++
    fallback.label ++ "'"
  depth := v.depth

def ofToken (v : Value) (source : String) : Report Profile :=
  match v with
  | .profile p => pure p
  | v => match parse? v with
    | .error fault => Report.fail (.value fault)
    | .ok (some p) => pure p
    | .ok none => do
      Report.warn (unknownText v source)
      return fallback

def validate (v : Value) : Except Failure (Option Profile) :=
  match v with
  | .null => .ok none
  | v => match parse? v with
    | .error fault => .error (.value fault)
    | .ok (some p) => .ok (some p)
    | .ok none => .error (.ofUsage (.unknownProfile v))

end Profile

end FormatSettings
