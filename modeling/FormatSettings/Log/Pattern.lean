import FormatSettings.Log.Conversion
import FormatSettings.Log.Record

/-!
Messages as patterns with values put in. A single table that is not empty gives its values by key;
other values are taken one after the other, and all of them have to be used.
-/

namespace FormatSettings.Log

inductive Supply
  | values (vs : List Value)
  | table (entries : Table) (current : Option Value)

namespace Supply

def next : Supply → Except PatternFault (Value × Supply)
  | .values (v :: vs) => .ok (v, .values vs)
  | .values [] => .error .tooFewValues
  | .table entries (some v) => .ok (v, .table entries none)
  | .table _ none => .error .tooFewValues

def select (s : Selector) (supply : Supply) : Except PatternFault Supply :=
  match s, supply with
  | .next, supply => .ok supply
  | _, .values _ => .error .notATable
  | .notClosed, .table _ _ => .error .keyNotClosed
  | .named key, .table entries _ => match entries.lookup key with
    | some v => .ok (.table entries (some v))
    | none => .error (.missingKey key)

def checkTaken : Supply → Except PatternFault Unit
  | .table _ (some _) => .error .tooManyValues
  | _ => .ok ()

def checkUsed : Supply → Except PatternFault Unit
  | .values (_ :: _) => .error .tooManyValues
  | _ => .ok ()

end Supply

def greatestWidth : Nat := 9223372036854775807

def greatestPrecision : Nat := 2147483647

def greatestLength : Nat := 2147483647

def integerValue (v : Value) : Except PatternFault Int :=
  match v with
  | .int i => .ok i
  | .bool b => .ok (if b then 1 else 0)
  | v => .error (.countNotInteger v)

def takeCount (greatest : Nat) (tooLarge : PatternFault) (c : Option Count) (supply : Supply) :
    Except PatternFault (Option Int × Supply) :=
  match c with
  | none => .ok (none, supply)
  | some (.written n) => if n ≤ greatest then .ok (some n, supply) else .error tooLarge
  | some .taken => do
    let (v, supply) ← supply.next
    let i ← integerValue v
    if i.natAbs ≤ greatest then return (some i, supply) else throw .countTooLarge

def flagsOf (p : Place) (width : Option Int) : List Flag :=
  match width with
  | some (.negSucc _) => .leftAligned :: p.flags
  | _ => p.flags

def Place.fill (p : Place) (supply : Supply) : Except PatternFault (List Char × Supply) := do
  let supply ← supply.select p.selector
  let (width, supply) ← takeCount greatestWidth .widthTooLarge p.width supply
  let (precision, supply) ← takeCount greatestPrecision .precisionTooLarge p.precision supply
  match p.conversion with
  | none => throw .placeNotClosed
  | some (letter, index) =>
    let (v, supply) ← supply.next
    let some c := Conversion.ofChar? letter | throw (.unknownConversion letter index)
    if greatestLength < (width.map Int.natAbs).getD 0 then throw .tooLong
    let cs ← fillPlace letter c (flagsOf p width) (width.map Int.natAbs) (precision.map Int.toNat) v
    supply.checkTaken
    return (cs, supply)

def fillSegments : List Segment → Supply → Except PatternFault (List Char)
  | [], supply => supply.checkUsed.map fun _ => []
  | .char c :: rest, supply => (fillSegments rest supply).map (c :: ·)
  | .place p :: rest, supply => do
    let (cs, supply) ← p.fill supply
    return cs ++ (← fillSegments rest supply)

def fill (pattern : String) (vs : List Value) : Except PatternFault String :=
  match vs with
  | [] => .ok pattern
  | [.table (e :: es)] =>
    (fillSegments (segments pattern) (.table (e :: es) (some (.table (e :: es))))).map String.ofList
  | vs => (fillSegments (segments pattern) (.values vs)).map String.ofList

structure Entry where
  level : Int
  message : String
  deriving Repr, DecidableEq

structure Call where
  level : Int
  pattern : String
  values : List Value

def effectiveLevel (threshold : Int) : Int :=
  if threshold == 0 then Severity.trace.number else threshold

def lets (threshold level : Int) : Bool :=
  0 < level && effectiveLevel threshold ≤ level

def entries (threshold : Int) : List Call → List Entry × Except PatternFault Unit
  | [] => ([], .ok ())
  | call :: rest =>
    if lets threshold call.level then
      match fill call.pattern call.values with
      | .error fault => ([], .error fault)
      | .ok message =>
        let (more, outcome) := entries threshold rest
        (⟨call.level, message⟩ :: more, outcome)
    else entries threshold rest

def methodLevel? (name : String) : Option Nat :=
  ([("trace", Severity.trace), ("debug", .debug), ("info", .info), ("warning", .warning),
    ("warn", .warning), ("error", .error), ("exception", .error), ("critical", .critical),
    ("fatal", .critical)].lookup name).map Severity.number

end FormatSettings.Log
