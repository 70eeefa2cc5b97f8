import FormatSettings.Failure
import FormatSettings.Log.Severity

/-!
Reports: a result or a failure, with the notices made on the way. Notices made before a failure stay.
-/

namespace FormatSettings

def Message.showing (text : String) (v : Value) : Message :=
  ⟨text ++ v.shown, v.depth⟩

structure Report (α : Type) where
  notices : List Notice
  outcome : Except Failure α

namespace Report

variable {α β : Type}

def bind (r : Report α) (f : α → Report β) : Report β :=
  match r.outcome with
  | .error e => ⟨r.notices, .error e⟩
  | .ok a => ⟨r.notices ++ (f a).notices, (f a).outcome⟩

instance : Monad Report where
  pure a := ⟨[], .ok a⟩
  bind := bind

def fail (e : Failure) : Report α :=
  ⟨[], .error e⟩

def ofExcept (e : Except Failure α) : Report α :=
  ⟨[], e⟩

def note (severity : Severity) (message : Message) : Report Unit :=
  ⟨[⟨severity, message⟩], .ok ()⟩

def trace (message : Message) : Report Unit := note .trace message

def debug (message : Message) : Report Unit := note .debug message

def warn (message : Message) : Report Unit := note .warning message

def warnings (r : Report α) : List Notice :=
  r.notices.filter (·.severity == .warning)

end Report

end FormatSettings
