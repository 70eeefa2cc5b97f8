import FormatSettings.FixSet
import FormatSettings.Profile.Lookup

namespace FormatSettings.Fix

def parseValue? (v : Value) : Except Failure (Option Fix) :=
  match v with
  | .null => .ok none
  | v => match v.asText? with
    | some s => .ok (parse? s)
    | none => .error (.missingMember v)

def unknownText (v : Value) (source : String) : Message where
  text := "Ignoring unknown style fix " ++ v.shown ++ sourceSuffix source ++ " (allowed values: " ++
    allKeys ++ ")"
  depth := v.depth

def selected (source : String) : List Value → Report (List Fix)
  | [] => pure []
  | v :: vs => do
    match parse? (← Report.ofExcept v.token) with
    | some f => do
      let fs ← selected source vs
      return f :: fs
    | none => do
      Report.warn (unknownText v source)
      selected source vs

def ofTokens (tokens : Value) (source : String) : Report FixSet :=
  match tokens.elements? with
  | none => Report.fail (.call (.notIterable tokens))
  | some vs => do
    let fs ← selected source vs
    return FixSet.ofFixes fs

def validateAll : List Value → Except Failure (List Fix)
  | [] => .ok []
  | v :: vs => do
    match ← parseValue? v with
    | some f => return f :: (← validateAll vs)
    | none => throw (.usage (.unknownFix v))

def validate (tokens : Value) : Except Failure (List Fix) :=
  match tokens.elements? with
  | none => .error (.call (.notIterable tokens))
  | some vs => validateAll vs

end FormatSettings.Fix
