import FormatSettings.Binary64
import FormatSettings.Fix
import FormatSettings.LineEnding
import FormatSettings.Moment
import FormatSettings.Profile
import FormatSettings.Style
import FormatSettings.Widths

namespace FormatSettings

inductive Value
  | null
  | bool (b : Bool)
  | int (i : Int)
  | float (x : Binary64)
  | text (s : String)
  | moment (m : Moment)
  | profile (p : Profile)
  | fix (f : Fix)
  | lineEnding (e : LineEnding)
  | widths (w : Widths)
  | style (s : Style)
  | path (s : String)
  | list (vs : List Value)
  | tuple (vs : List Value)
  | set (isFrozen : Bool) (vs : List Value)
  | table (entries : List (String × Value))
  | record (name : String) (fields : List (String × Value))

abbrev Table := List (String × Value)

namespace Value

instance : Inhabited Value := ⟨.null⟩

def isNull : Value → Bool
  | .null => true
  | _ => false

def orElse (v w : Value) : Value :=
  if v.isNull then w else v

def ofOption {α : Type} (wrap : α → Value) : Option α → Value
  | some a => wrap a
  | none => .null

def asText? : Value → Option String
  | .text s => some s
  | .fix f => some f.key
  | .lineEnding e => some e.newline
  | _ => none

def holds : Value → Bool
  | .null => false
  | .bool b => b
  | .int i => i != 0
  | .float x => !x.isZero
  | .text s => !s.isEmpty
  | .list vs => !vs.isEmpty
  | .tuple vs => !vs.isEmpty
  | .set _ vs => !vs.isEmpty
  | .table entries => !entries.isEmpty
  | _ => true

def elements? : Value → Option (List Value)
  | .list vs => some vs
  | .tuple vs => some vs
  | .set _ vs => some vs
  | .table entries => some (entries.map (.text ·.1))
  | v => v.asText?.map fun s => s.toList.map fun c => .text (String.ofList [c])

end Value

namespace Table

def valueOf (t : Table) (key : String) : Value :=
  (t.lookup key).getD .null

def arranged (keys : List String) (t : Table) : Table :=
  keys.filterMap fun key => (t.lookup key).map fun v => (key, v)

def hasKey (t : Table) (key : String) : Bool :=
  (t.lookup key).isSome

end Table

end FormatSettings
