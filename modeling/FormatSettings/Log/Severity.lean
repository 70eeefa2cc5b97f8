namespace FormatSettings

inductive Severity
  | trace
  | debug
  | info
  | warning
  | error
  | critical
  deriving Repr, DecidableEq

namespace Severity

def all : List Severity :=
  [.trace, .debug, .info, .warning, .error, .critical]

def number : Severity → Nat
  | .trace => 5
  | .debug => 10
  | .info => 20
  | .warning => 30
  | .error => 40
  | .critical => 50

def name : Severity → String
  | .trace => "TRACE"
  | .debug => "DEBUG"
  | .info => "INFO"
  | .warning => "WARNING"
  | .error => "ERROR"
  | .critical => "CRITICAL"

def withNumber? (n : Nat) : Option Severity :=
  all.find? (·.number == n)

end Severity

structure Message where
  text : String
  depth : Nat
  deriving Repr, DecidableEq

instance : Coe String Message :=
  ⟨fun text => ⟨text, 0⟩⟩

structure Notice where
  severity : Severity
  message : Message
  deriving Repr, DecidableEq

namespace Notice

def reaches (n : Notice) (level : Nat) : Bool :=
  level ≤ n.severity.number

end Notice

end FormatSettings
