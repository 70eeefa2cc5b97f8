import FormatSettings.Failure

namespace FormatSettings

structure Arguments where
  positional : List Value := []
  named : Table := []

namespace Arguments

def checkNames (params taken : List String) : Table → Except Failure Unit
  | [] => .ok ()
  | (name, _) :: rest =>
    if !params.contains name then .error (.call (.unknownArgument name))
    else if taken.contains name then .error (.call (.repeatedArgument name))
    else checkNames params taken rest

def bind (params : List String) (a : Arguments) : Except Failure Table := do
  if params.length < a.positional.length then throw (.call .tooManyArguments)
  let taken := params.take a.positional.length
  checkNames params taken a.named
  return taken.zip a.positional ++ a.named

def bindNamed (params : List String) (a : Arguments) : Except Failure Table := do
  if !a.positional.isEmpty then throw (.call .tooManyArguments)
  checkNames params [] a.named
  return a.named

end Arguments

namespace Table

def valueOr (t : Table) (name : String) (default : Value) : Value :=
  (t.lookup name).getD default

end Table

end FormatSettings
