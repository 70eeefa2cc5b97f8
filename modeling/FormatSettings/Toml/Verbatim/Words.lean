import FormatSettings.Toml.Words

namespace FormatSettings.Toml.Verbatim

def dropJoints (p : Char → Bool) : (before : Char) → List Char → List Char
  | _, [] => []
  | before, '_' :: c :: rest =>
    if p before && p c then c :: dropJoints p c rest else '_' :: dropJoints p '_' (c :: rest)
  | _, c :: rest => c :: dropJoints p c rest

def startsWithAny (starts : List (List Char)) (cs : List Char) : Bool :=
  starts.any fun s => s.isPrefixOf cs

def isDecimalText (cs : List Char) : Bool :=
  let digits (cs : List Char) : Bool := !cs.isEmpty && cs.all fun c => (Text.digitValue? c).isSome
  let exponent : List Char → Bool
    | '+' :: rest => digits rest
    | '-' :: rest => digits rest
    | rest => digits rest
  let mantissa := cs.takeWhile (· != 'e')
  let isExponentFine := match cs.dropWhile (· != 'e') with
    | [] => true
    | _ :: rest => exponent rest
  let isMantissaFine := match mantissa.dropWhile (· != '.') with
    | [] => digits mantissa
    | _ :: fraction =>
      let whole := mantissa.takeWhile (· != '.')
      (whole.isEmpty || digits whole) && digits fraction
  isMantissaFine && isExponentFine

def isNotFinite (cs : List Char) : Bool :=
  cs == ['i', 'n', 'f'] || cs == ['n', 'a', 'n'] || cs == ['i', 'n', 'f', 'i', 'n', 'i', 't', 'y']

def isBasedText (base : Nat) (cs : List Char) : Bool :=
  let digits := cs.drop 2
  !digits.isEmpty && digits.all fun c =>
    match Text.digitValue? c with
    | some d => d < base
    | none => digitOfBase base c

def isMagnitude (isSigned : Bool) (cs : List Char) : Bool :=
  let base :=
    if ['0', 'b'].isPrefixOf cs then 2
    else if ['0', 'o'].isPrefixOf cs then 8
    else if ['0', 'x'].isPrefixOf cs then 16
    else 10
  let hasZero := 1 < cs.length && ['0'].isPrefixOf cs &&
    !startsWithAny [['0', '.'], ['0', 'o'], ['0', 'x'], ['0', 'b'], ['0', 'e']] cs
  let clean := (dropJoints (digitOfBase base) ' ' cs).map Char.toLower
  let bare := (clean.reverse.dropWhile Text.isIntegerBlank).reverse
  let endsOpen := clean.getLast? == some '.' ||
    (base != 16 && (clean.takeWhile (· != 'e')).getLast? == some '.')
  if hasZero || (isSigned && (base != 10 || ['.'].isPrefixOf cs)) then false
  else if clean.contains '_' || endsOpen then false
  else if base == 10 then isDecimalText bare || isNotFinite bare
  else isBasedText base bare

def isNumber : List Char → Bool
  | '+' :: rest => isMagnitude true rest
  | '-' :: rest => isMagnitude true rest
  | cs => isMagnitude false cs

def readDay? (cs : List Char) : Option (Date × List Char) := do
  let year := cs.takeWhile Char.isDigit
  let cs ← skipChar? '-' (cs.dropWhile Char.isDigit)
  let (month, cs) ← readDigits? 2 cs
  let cs ← skipChar? '-' cs
  let (day, cs) ← readDigits? 2 cs
  let d : Date := ⟨Binary64.digitsNat year, month, day⟩
  if d.valid && d.year < 10000 then some (d, cs) else none

def readTime? (cs : List Char) : Option (Clock × List Char) := do
  let (hour, cs) ← readDigits? 2 cs
  let cs ← skipChar? ':' cs
  let (minute, cs) ← readDigits? 2 cs
  let (t, cs) : Clock × List Char ← match cs with
    | ':' :: rest => do
      let (second, rest) ← readDigits? 2 rest
      let (micro, rest) ← readFraction? rest
      some (⟨hour, minute, second, micro⟩, rest)
    | cs => some (⟨hour, minute, 0, 0⟩, cs)
  if t.valid then some (t, cs) else none

def isOffset : List Char → Bool
  | '|' :: rest => (readOffset? ('+' :: rest)).isSome
  | cs => (readOffset? cs).isSome

def isTime (cs : List Char) : Bool :=
  (readTime? cs).any (·.2.isEmpty)

def isDay (cs : List Char) : Bool :=
  (readDay? cs).any (·.2.isEmpty)

def isDayTime (cs : List Char) : Bool :=
  match readDay? cs with
  | some (_, c :: rest) =>
    (c == 'T' || c == 't' || c == ' ') && (readTime? rest).any fun (_, rest) => isOffset rest
  | _ => false

def readBare? (cs : List Char) : Option (List Char × List Char × List Char) :=
  let word := cs.takeWhile (!endsWord ·)
  let rest := cs.dropWhile (!endsWord ·)
  match cs.head? with
  | none => none
  | some c =>
    if isDay word then
      let isMore (c : Char) : Bool := c == ' ' || !endsWord c
      let more := rest.takeWhile isMore
      let time := (more.reverse.dropWhile Text.isBlank).reverse
      let gap := more.drop time.length
      if time.isEmpty || isDayTime (word ++ time) then
        some (word ++ time, gap, rest.dropWhile isMore)
      else none
    else if isDayTime word || isTime word then some (word, [], rest)
    else if (c.isDigit || c == '+' || c == '-') && isNumber word then some (word, [], rest)
    else if word == ['i', 'n', 'f'] || word == ['n', 'a', 'n'] then some (word, [], rest)
    else none

end FormatSettings.Toml.Verbatim
