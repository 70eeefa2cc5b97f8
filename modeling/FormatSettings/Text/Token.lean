import FormatSettings.Text.Blank
import FormatSettings.Text.LowerCase

namespace FormatSettings.Text

def foldSeparator (c : Char) : Char :=
  if c == '-' || c == ' ' then '_' else c

def fold (cs : List Char) : List Char :=
  (lower (strip cs)).map foldSeparator

def foldToken (s : String) : String :=
  String.ofList (fold s.toList)

end FormatSettings.Text
