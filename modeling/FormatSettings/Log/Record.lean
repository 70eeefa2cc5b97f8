import FormatSettings.Log.Severity
import FormatSettings.Text.Numeral

namespace FormatSettings.Log

def levelName (level : Int) : String :=
  match level with
  | .ofNat 0 => "NOTSET"
  | .ofNat n => match Severity.withNumber? n with
    | some s => s.name
    | none => "Level " ++ Text.showNat n
  | .negSucc _ => "Level " ++ Text.showInt level

def line (level : Int) (message : String) : String :=
  "[" ++ levelName level ++ "] " ++ message

end FormatSettings.Log
