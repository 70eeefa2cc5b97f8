namespace FormatSettings

inductive LineEnding
  | lf
  | crlf
  | cr
  deriving Repr, DecidableEq

namespace LineEnding

def all : List LineEnding :=
  [.lf, .crlf, .cr]

def name : LineEnding → String
  | .lf => "LF"
  | .crlf => "CRLF"
  | .cr => "CR"

def token : LineEnding → String
  | .lf => "lf"
  | .crlf => "crlf"
  | .cr => "cr"

def newline : LineEnding → String
  | .lf => "\n"
  | .crlf => "\r\n"
  | .cr => "\r"

def allTokens : String :=
  ", ".intercalate (all.map token)

def ofNewline? (s : String) : Option LineEnding :=
  all.find? (·.newline == s)

end LineEnding

end FormatSettings
