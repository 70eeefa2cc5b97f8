namespace FormatSettings

inductive Profile
  | dartStyle
  | expanded
  | reserved2
  | reserved3
  deriving Repr, DecidableEq

namespace Profile

def all : List Profile :=
  [.dartStyle, .expanded, .reserved2, .reserved3]

def fallback : Profile := .dartStyle

def code : Profile → Nat
  | .dartStyle => 0
  | .expanded => 1
  | .reserved2 => 2
  | .reserved3 => 3

def key : Profile → String
  | .dartStyle => "DART_STYLE"
  | .expanded => "EXPANDED"
  | .reserved2 => "RESERVED_2"
  | .reserved3 => "RESERVED_3"

def label : Profile → String
  | .dartStyle => "Dart Style"
  | .expanded => "Expanded"
  | .reserved2 => "Reserved 2"
  | .reserved3 => "Reserved 3"

def description : Profile → String
  | .dartStyle => "Google 'dart' style [custom tab indents & tab mode]"
  | .expanded => "dart_style with outer braces on block-like nodes"
  | .reserved2 => "Reserved profile slot; formats like Dart Style"
  | .reserved3 => "Reserved profile slot; formats like Dart Style"

def withCode? (n : Nat) : Option Profile :=
  all.find? (·.code == n)

def withLabel? (s : String) : Option Profile :=
  all.find? (·.label == s)

end Profile

end FormatSettings
