namespace FormatSettings.Toml

def isBareKeyChar (c : Char) : Bool :=
  c.isAlphanum || c == '_' || c == '-'

def isBareKeyText (cs : List Char) : Bool :=
  !cs.isEmpty && cs.all isBareKeyChar

end FormatSettings.Toml
