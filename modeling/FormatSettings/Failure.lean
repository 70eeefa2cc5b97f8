import FormatSettings.Value.Shown

/-!
Causes of failure, and the words in which each is reported.
-/

namespace FormatSettings

open Text (NumeralFault digitLimit showNat showInt quote)

inductive OptionFault
  | notInteger (name : String) (value : Value)
  | negative (name : String) (value : Int)
  | pageWidthTooSmall (value : Int)
  | unknownLineEnding (value : Value)
  | insertSpacesNotFlag (value : Value)
  | notWidths (value : Value)
  | notStyle (value : Value)
  | styleFlagNotFlag (name : String) (value : Value)

namespace OptionFault

def message : OptionFault → String
  | .notInteger name v => "'" ++ name ++ "' must be an integer, got " ++ v.shown
  | .negative name i => "'" ++ name ++ "' must not be negative, got " ++ showInt i
  | .pageWidthTooSmall i => "'page_width' must be at least 1, got " ++ showInt i
  | .unknownLineEnding v => "'line_ending' must be one of LF, CRLF or CR, got " ++ v.shown
  | .insertSpacesNotFlag v => "'insert_spaces' must be a bool, got " ++ v.shown
  | .notWidths v => "'tab_sizes' must be a CodeIndent, got " ++ v.shown
  | .notStyle v => "'style' must be a CodeStyle, got " ++ v.shown
  | .styleFlagNotFlag name v => "Style flag '" ++ name ++ "' must be a bool, got " ++ v.shown

def value : OptionFault → Value
  | .notInteger _ v | .unknownLineEnding v | .insertSpacesNotFlag v | .notWidths v | .notStyle v
  | .styleFlagNotFlag _ v => v
  | .negative _ i | .pageWidthTooSmall i => .int i

end OptionFault

inductive ValueFault
  | numeral (fault : NumeralFault)
  | integerTooLong
  | sectionWithoutName (path : String)
  | nullInPath
  | notAPair (index length : Nat)

namespace ValueFault

def limitText : String :=
  "Exceeds the limit (" ++ showNat digitLimit ++ " digits) for integer string conversion"

def limitAdvice : String :=
  "; use sys.set_int_max_str_digits() to increase the limit"

def excerpt (s : String) : String :=
  String.ofList ((quote s).toList.take 200)

def message : ValueFault → String
  | .numeral (.notDecimal s) => "invalid literal for int() with base 10: " ++ excerpt s
  | .numeral (.tooLong n) =>
    limitText ++ ": value has " ++ showNat n ++ " digits" ++ limitAdvice
  | .integerTooLong => limitText ++ limitAdvice
  | .sectionWithoutName s => "Invalid section path " ++ quote s ++ ": no table name"
  | .nullInPath => "embedded null byte"
  | .notAPair index length =>
    "dictionary update sequence element #" ++ showNat index ++ " has length " ++ showNat length ++
      "; 2 is required"

end ValueFault

inductive UsageFault
  | verbosityConflict
  | unknownProfile (raw : Value)
  | unknownFix (raw : Value)

namespace UsageFault

def isWritable : UsageFault → Bool
  | .verbosityConflict => true
  | .unknownProfile v | .unknownFix v => v.isWritable

def profileList : String :=
  ", ".intercalate (Profile.all.map fun p => showNat p.code ++ " (" ++ p.label ++ ")")

def message : UsageFault → String
  | .verbosityConflict => "The '--verbose' and '--quiet' options are mutually exclusive."
  | .unknownProfile v => "Unknown profile " ++ v.shown ++ ". Valid profiles: " ++ profileList
  | .unknownFix v => "Unknown style fix " ++ v.shown ++ ". Valid fixes: " ++ Fix.allKeys

end UsageFault

inductive PatternFault
  | tooFewValues
  | tooManyValues
  | notATable
  | missingKey (key : String)
  | keyNotClosed
  | countNotInteger (value : Value)
  | countTooLarge
  | widthTooLarge
  | precisionTooLarge
  | placeNotClosed
  | unknownConversion (conversion : Char) (index : Nat)
  | wrongKind (conversion : Char) (value : Value)
  | notANumber
  | outOfRange (value : Value)
  | tooLong

namespace PatternFault

def showConversion (c : Char) : String :=
  if 31 ≤ c.toNat && c.toNat < 127 then c.toString else "?"

def message : PatternFault → String
  | .tooFewValues => "not enough arguments for format string"
  | .tooManyValues => "not all arguments converted during string formatting"
  | .notATable => "format requires a mapping"
  | .missingKey key => quote key
  | .keyNotClosed => "incomplete format key"
  | .countNotInteger _ => "* wants int"
  | .countTooLarge => "count too large"
  | .widthTooLarge => "width too big"
  | .precisionTooLarge => "precision too big"
  | .placeNotClosed => "incomplete format"
  | .unknownConversion c index =>
    "unsupported format character " ++ "'" ++ showConversion c ++ "' (0x" ++
      String.ofList (Nat.toDigits 16 c.toNat) ++ ") at index " ++ showNat index
  | .wrongKind c v => "%" ++ c.toString ++ " does not take " ++ v.shown
  | .notANumber => "cannot convert float NaN to integer"
  | .outOfRange v => "out of range: " ++ v.shown
  | .tooLong => "text too long"

end PatternFault

inductive CallFault
  | unknownArgument (name : String)
  | repeatedArgument (name : String)
  | tooManyArguments
  | notIterable (value : Value)
  | notHashable (value : Value)
  | notATable (value : Value)
  | notJoined (value : Value)

inductive Failure
  | option (fault : OptionFault)
  | value (fault : ValueFault)
  | usage (fault : UsageFault)
  | call (fault : CallFault)
  | pattern (fault : PatternFault)
  | missingMember (value : Value)
  | frozenField (name : String)
  | invalidDocument
  | repeatedKey (name : String)
  | redefinedTable
  | notReadBack
  | linkLoop (path : String)
  | pathTooLong (path : String)
  | accessDenied (path : String)
  | notUnicode (path : String)
  | foreign (error : String)
  | tooDeep
  | looseEscape

namespace Failure

/-- The failure that a refused value comes to: that of writing the message where the value cannot be
written. -/
def ofOption (fault : OptionFault) : Failure :=
  if fault.value.isWritable then .option fault else .value .integerTooLong

def ofUsage (fault : UsageFault) : Failure :=
  if fault.isWritable then .usage fault else .value .integerTooLong

def message : Failure → String
  | .option fault => fault.message
  | .value fault => fault.message
  | .usage fault => fault.message
  | .pattern fault => fault.message
  | .call (.unknownArgument name) => "unexpected argument " ++ quote name
  | .call (.repeatedArgument name) => "repeated argument " ++ quote name
  | .call .tooManyArguments => "too many arguments"
  | .call (.notIterable v) => "not iterable: " ++ v.shown
  | .call (.notHashable v) => "not hashable: " ++ v.shown
  | .call (.notATable v) => "not a table: " ++ v.shown
  | .call (.notJoined v) => "cannot be joined: " ++ v.shown
  | .missingMember v => "no such member of " ++ v.shown
  | .frozenField name => "cannot assign to field " ++ quote name
  | .invalidDocument => "invalid TOML"
  | .repeatedKey name => "Key " ++ quote name ++ " already exists"
  | .redefinedTable => "Redefinition of an existing table"
  | .notReadBack => "invalid TOML after nesting"
  | .linkLoop path => "Symlink loop from " ++ quote path
  | .pathTooLong path => "File name too long: " ++ quote path
  | .accessDenied path => "Permission denied: " ++ quote path
  | .notUnicode path => "not UTF-8: " ++ path
  | .foreign error => error
  | .tooDeep => "maximum recursion depth exceeded"
  | .looseEscape => "escape without text"

end Failure

def Value.token (v : Value) : Except Failure String :=
  if v.isWritable then .ok v.tokenText else .error (.value .integerTooLong)

end FormatSettings
