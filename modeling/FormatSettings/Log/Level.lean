import FormatSettings.Failure
import FormatSettings.Log.Severity
import FormatSettings.Text.UpperCase

namespace FormatSettings.Log

def levelNames : List (String × Nat) :=
  [("TRACE", 5), ("DEBUG", 10), ("INFO", 20), ("WARNING", 30), ("WARN", 30), ("ERROR", 40),
   ("CRITICAL", 50), ("FATAL", 50), ("NOTSET", 0)]

def parseText? (s : String) : Except ValueFault (Option Nat) :=
  let token := Text.upper (Text.strip s.toList)
  if Text.allDigits token then
    match Text.readDigits token with
    | .ok n => .ok (some n)
    | .error fault => .error (.numeral fault)
  else .ok (levelNames.lookup (String.ofList token))

def parse? (v : Value) : Except Failure (Option Nat) :=
  if !v.holds then .ok none
  else match v.asText? with
    | some s => (parseText? s).mapError .value
    | none => .error (.missingMember v)

def ofEnvironment? (env : Option String) : Except Failure (Option Nat) :=
  parse? (Value.ofOption .text env)

def ofFlags (verbose quiet : Int) : Except UsageFault Severity :=
  if 0 < verbose && 0 < quiet then .error .verbosityConflict
  else if 3 ≤ verbose then .ok .trace
  else if verbose == 2 then .ok .debug
  else if verbose == 1 then .ok .info
  else if 1 ≤ quiet then .ok .error
  else .ok .warning

end FormatSettings.Log
