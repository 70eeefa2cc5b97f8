import FormatSettings.Text.Quoted

/-!
Words of a command line split into options and operands. Long options take their value after an equals
sign or from the next word, whatever it is; short options take none and can share a dash; a double dash
ends the options.
-/

namespace FormatSettings.CommandLine

structure Spec (ι : Type) where
  option : ι
  long : String
  short : Option Char := none
  takesValue : Bool := false

inductive ScanFault
  | unknownOption (name : String)
  | missingValue (name : String)
  | unwantedValue (name : String)
  deriving Repr, DecidableEq

namespace ScanFault

def message : ScanFault → String
  | .unknownOption name => "No such option " ++ Text.quote name ++ "."
  | .missingValue name => "Option " ++ Text.quote name ++ " requires an argument."
  | .unwantedValue name => "Option " ++ Text.quote name ++ " does not take a value."

end ScanFault

structure Scan (ι : Type) where
  options : List (ι × Option String)
  operands : List String

variable {ι : Type}

namespace Scan

def addOptions (found : List (ι × Option String)) (s : Scan ι) : Scan ι :=
  { s with options := found ++ s.options }

def addOperand (word : String) (s : Scan ι) : Scan ι :=
  { s with operands := word :: s.operands }

end Scan

inductive Word (ι : Type)
  | complete (found : List (ι × Option String))
  | needsValue (option : ι) (name : String)

def isOption (word : String) : Bool :=
  match word.toList with
  | '-' :: _ :: _ => true
  | _ => false

def splitEquals (word : String) : String × Option String :=
  let cs := word.toList
  let name := String.ofList (cs.takeWhile (· != '='))
  match cs.dropWhile (· != '=') with
  | [] => (name, none)
  | _ :: value => (name, some (String.ofList value))

def readLetters (specs : List (Spec ι)) : List Char → Except ScanFault (List (ι × Option String))
  | [] => .ok []
  | c :: rest =>
    match specs.find? (·.short == some c) with
    | none => .error (.unknownOption (String.ofList ['-', c]))
    | some spec => (readLetters specs rest).map fun found => (spec.option, none) :: found

def readWord (specs : List (Spec ι)) (word : String) : Except ScanFault (Word ι) :=
  let (name, value) := splitEquals word
  match specs.find? (·.long == name), value with
  | some spec, some v =>
    if spec.takesValue then .ok (.complete [(spec.option, some v)])
    else .error (.unwantedValue name)
  | some spec, none =>
    if spec.takesValue then .ok (.needsValue spec.option name)
    else .ok (.complete [(spec.option, none)])
  | none, _ =>
    if word.startsWith "--" then .error (.unknownOption name)
    else (readLetters specs (word.toList.drop 1)).map .complete

def scan (specs : List (Spec ι)) (isMixed : Bool) : List String → Except ScanFault (Scan ι)
  | [] => .ok ⟨[], []⟩
  | word :: rest =>
    if word == "--" then .ok ⟨[], rest⟩
    else if isOption word then
      match readWord specs word with
      | .error fault => .error fault
      | .ok (.complete found) => (scan specs isMixed rest).map (Scan.addOptions found)
      | .ok (.needsValue option name) =>
        match rest with
        | [] => .error (.missingValue name)
        | value :: rest =>
          (scan specs isMixed rest).map (Scan.addOptions [(option, some value)])
    else if isMixed then (scan specs isMixed rest).map (Scan.addOperand word)
    else .ok ⟨[], word :: rest⟩

end FormatSettings.CommandLine
