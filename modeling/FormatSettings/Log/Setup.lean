import FormatSettings.Log.Level

/-!
The root logger: its level and its handlers. Setting it up replaces all handlers by one.
-/

namespace FormatSettings.Log

inductive RecordFormat
  | short
  | detailed
  deriving Repr, DecidableEq

namespace RecordFormat

def pattern : RecordFormat → String
  | .short => "[%(levelname)s] %(message)s"
  | .detailed => "[%(levelname)s] [%(name)s:%(lineno)d] %(message)s"

def forLevel (level : Int) : RecordFormat :=
  if Severity.info.number ≤ level then .short else .detailed

end RecordFormat

inductive Handler
  | stream (format : RecordFormat)
  | foreign (id : Nat)
  deriving Repr, DecidableEq

structure Root where
  level : Int
  handlers : List Handler
  deriving Repr, DecidableEq

namespace Root

def remove (r : Root) (h : Handler) : Root :=
  { r with handlers := r.handlers.erase h }

def add (r : Root) (h : Handler) : Root :=
  { r with handlers := r.handlers ++ [h] }

def configure (r : Root) (level : Int) : Root :=
  (r.handlers.foldl remove { r with level := level }).add (.stream (.forLevel level))

end Root

def setupLevel (env : Option String) : Option Int → Except Failure Int
  | some level => .ok level
  | none => (ofEnvironment? env).map fun level =>
    match level with
    | some (n + 1) => n + 1
    | _ => Severity.critical.number

def setup (env : Option String) (level : Option Int) (r : Root) : Except Failure Root :=
  (setupLevel env level).map r.configure

def setupAll (env : Option String) : List (Option Int) → Root → Except Failure Root
  | [], r => .ok r
  | level :: levels, r => do
    let r ← setup env level r
    setupAll env levels r

end FormatSettings.Log
