import FormatSettings.Value

namespace FormatSettings

inductive Number
  | int (i : Int)
  | float (x : Binary64)

namespace Number

def same : Number → Number → Bool
  | .int i, .int j => i == j
  | .int i, .float y => y.toInt? == some i
  | .float x, .int j => x.toInt? == some j
  | .float x, .float y => x.same y

end Number

namespace Value

def asNumber? : Value → Option Number
  | .bool b => some (.int (if b then 1 else 0))
  | .int i => some (.int i)
  | .float x => some (.float x)
  | _ => none

def sameAtom (v w : Value) : Bool :=
  match v.asNumber?, w.asNumber? with
  | some x, some y => x.same y
  | some _, none => false
  | none, some _ => false
  | none, none =>
    match v.asText?, w.asText? with
    | some s, some t => s == t
    | some _, none => false
    | none, some _ => false
    | none, none =>
      match v, w with
      | .null, .null => true
      | .moment m, .moment n => m == n
      | .profile p, .profile q => p == q
      | .widths x, .widths y => x == y
      | .style x, .style y => x == y
      | .path x, .path y => x == y
      | _, _ => false

mutual

def same : Value → Value → Bool
  | .list vs, w => match w with
    | .list ws => sameItems vs ws
    | _ => false
  | .tuple vs, w => match w with
    | .tuple ws => sameItems vs ws
    | _ => false
  | .set _ vs, w => match w with
    | .set _ ws => vs.length == ws.length && allAmong vs ws
    | _ => false
  | .table es, w => match w with
    | .table fs => es.length == fs.length && allEntriesAmong es fs
    | _ => false
  | .record name es, w => match w with
    | .record other fs => name == other && es.length == fs.length && allEntriesAmong es fs
    | _ => false
  | v, w => sameAtom v w

def sameItems : List Value → List Value → Bool
  | [], [] => true
  | v :: vs, w :: ws => v.same w && sameItems vs ws
  | _, _ => false

def allAmong : List Value → List Value → Bool
  | [], _ => true
  | v :: vs, ws => ws.any (v.same ·) && allAmong vs ws

def allEntriesAmong : List (String × Value) → List (String × Value) → Bool
  | [], _ => true
  | (k, v) :: es, fs =>
    (match fs.lookup k with
      | some w => v.same w
      | none => false) && allEntriesAmong es fs

end

def optionsName : String := "FormatterOptions"

mutual

def isHashable : Value → Bool
  | .list _ => false
  | .table _ => false
  | .tuple vs => areHashable vs
  | .set isFrozen _ => isFrozen
  | .record name _ => name == optionsName
  | _ => true

def areHashable : List Value → Bool
  | [] => true
  | v :: vs => v.isHashable && areHashable vs

end

end Value

end FormatSettings
