namespace FormatSettings

structure Date where
  year : Nat
  month : Nat
  day : Nat
  deriving Repr, DecidableEq

structure Clock where
  hour : Nat
  minute : Nat
  second : Nat
  microsecond : Nat
  deriving Repr, DecidableEq

inductive Moment
  | date (d : Date)
  | time (t : Clock)
  | dateTime (d : Date) (t : Clock) (offset : Option Int)
  deriving Repr, DecidableEq

def isLeapYear (y : Nat) : Bool :=
  y % 4 == 0 && (y % 100 != 0 || y % 400 == 0)

def daysInMonth (y m : Nat) : Nat :=
  if m == 2 then (if isLeapYear y then 29 else 28)
  else if m == 4 || m == 6 || m == 9 || m == 11 then 30
  else 31

namespace Date

def valid (d : Date) : Bool :=
  1 ≤ d.year && 1 ≤ d.month && d.month ≤ 12 && 1 ≤ d.day && d.day ≤ daysInMonth d.year d.month

end Date

namespace Clock

def valid (t : Clock) : Bool :=
  t.hour < 24 && t.minute < 60 && t.second < 60

end Clock

end FormatSettings
