import FormatSettings.Failure
import FormatSettings.Value.Same

namespace FormatSettings

structure FixSet where
  has : Fix → Bool
  others : List Value

namespace FixSet

def empty : FixSet :=
  ⟨fun _ => false, []⟩

def ofFixes (fixes : List Fix) : FixSet :=
  ⟨fixes.contains, []⟩

def fixes (s : FixSet) : List Fix :=
  Fix.all.filter s.has

def elements (s : FixSet) : List Value :=
  s.fixes.map .fix ++ s.others

def isEmpty (s : FixSet) : Bool :=
  s.elements.isEmpty

/-- Adds a fix, unless a text equal to its key is in the set. -/
def insertFix (s : FixSet) (f : Fix) : FixSet :=
  if s.others.any (·.same (.fix f)) then s
  else { s with has := fun g => g == f || s.has g }

def insert (s : FixSet) : Value → FixSet
  | .fix f => s.insertFix f
  | v => if s.elements.any (·.same v) then s else { s with others := s.others ++ [v] }

def insertAll? (s : FixSet) : List Value → Except Failure FixSet
  | [] => .ok s
  | v :: vs =>
    if v.isHashable then (s.insert v).insertAll? vs else .error (.call (.notHashable v))

def ofValues? (vs : List Value) : Except Failure FixSet :=
  empty.insertAll? vs

def ofValue? (v : Value) : Except Failure FixSet :=
  match v.elements? with
  | some vs => ofValues? vs
  | none => .error (.call (.notIterable v))

def union (s t : FixSet) : FixSet :=
  t.others.foldl insert (t.fixes.foldl insertFix s)

def same (s t : FixSet) : Bool :=
  (Value.set true s.elements).same (.set true t.elements)

def keys? (s : FixSet) : Except Failure (List String) :=
  match s.others with
  | [] => .ok (s.fixes.map Fix.key)
  | v :: _ => .error (.missingMember v)

def toValue (s : FixSet) (isFrozen : Bool) : Value :=
  .set isFrozen s.elements

end FixSet

end FormatSettings
