/-!
Binary floating-point numbers of 64 bits as exact data. A finite number is a mantissa below `2^53`
times a power of two not below `2^(-1074)`. Each number has one form: the mantissa is at least
`2^52` unless the exponent is the least one.
-/

namespace FormatSettings

inductive Binary64
  | nan
  | infinite (negative : Bool)
  | finite (negative : Bool) (mantissa : Nat) (exponent : Int)
  deriving Repr, DecidableEq

namespace Binary64

def mantissaBits : Nat := 53

def leastExponent : Int := -1074

def greatestExponent : Int := 971

def scaled (base n : Nat) (e : Int) : Nat × Nat :=
  match e with
  | .ofNat k => (n * base.pow k, 1)
  | .negSucc k => (n, base.pow (k + 1))

def roundDiv (num den : Nat) : Nat :=
  let q := num / den
  let twice := 2 * (num % den)
  if twice < den then q
  else if den < twice then q + 1
  else if q % 2 == 0 then q else q + 1

def unscale (base num den : Nat) (e : Int) : Nat × Nat :=
  match e with
  | .ofNat k => (num, den * base.pow k)
  | .negSucc k => (num * base.pow (k + 1), den)

def fitExponent (num den : Nat) : Int :=
  let e : Int := Int.ofNat num.log2 - Int.ofNat den.log2 - mantissaBits
  let (n, d) := unscale 2 num den e
  let e := if n / d < Nat.pow 2 mantissaBits then e else e + 1
  max e leastExponent

def ofFraction (negative : Bool) (num den : Nat) : Binary64 :=
  if num == 0 then .finite negative 0 leastExponent
  else
    let e := fitExponent num den
    let (n, d) := unscale 2 num den e
    let m := roundDiv n d
    let (m, e) := if m == Nat.pow 2 mantissaBits then (m / 2, e + 1) else (m, e)
    if greatestExponent < e then .infinite negative else .finite negative m e

def decimalReach : Int := 400

def ofDecimal (negative : Bool) (digits : Nat) (e : Int) : Binary64 :=
  if digits == 0 then .finite negative 0 leastExponent
  else
    let size : Int := Int.ofNat (Nat.toDigits 10 digits).length + e
    if decimalReach < size then .infinite negative
    else if size < -decimalReach then .finite negative 0 leastExponent
    else
      let (num, den) := scaled 10 digits e
      ofFraction negative num den

def isZero : Binary64 → Bool
  | .finite _ m _ => m == 0
  | _ => false

def toInt? : Binary64 → Option Int
  | .finite negative m e =>
    let (num, den) := scaled 2 m e
    if num % den == 0 then
      some (if negative then -Int.ofNat (num / den) else Int.ofNat (num / den))
    else none
  | _ => none

def same : Binary64 → Binary64 → Bool
  | .nan, _ => false
  | _, .nan => false
  | x, y => (x.isZero && y.isZero) || x == y

end Binary64

end FormatSettings
