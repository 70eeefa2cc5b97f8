import FormatSettings.Host
import FormatSettings.Report

/-!
Transcripts: what a command does one after the other, and what it comes to. What it did before a failure
stays.
-/

namespace FormatSettings.CommandLine

inductive Event
  | log (n : Notice)
  | print (text : String)

structure Transcript (α : Type) where
  events : List Event
  outcome : Except Failure α

namespace Transcript

variable {α β : Type}

def bind (t : Transcript α) (f : α → Transcript β) : Transcript β :=
  match t.outcome with
  | .error e => ⟨t.events, .error e⟩
  | .ok a => ⟨t.events ++ (f a).events, (f a).outcome⟩

instance : Monad Transcript where
  pure a := ⟨[], .ok a⟩
  bind := bind

def ofReport (r : Report α) : Transcript α :=
  ⟨r.notices.map .log, r.outcome⟩

def print (text : String) : Transcript Unit :=
  ⟨[.print text], .ok ()⟩

def echo (line : String) : Transcript Unit :=
  print (line ++ "\n")

end Transcript

namespace Event

/-- The record is logged at a level, but its values are nested too deeply to be shown. -/
def breaksOff [Host] (level : Nat) : Event → Bool
  | .log n => n.reaches level && Host.room < n.message.depth
  | .print _ => false

def logged? (level : Nat) : Event → Option Notice
  | .log n => if n.reaches level then some n else none
  | .print _ => none

def printed : Event → String
  | .log _ => ""
  | .print text => text

def outputOf (es : List Event) : String :=
  String.join (es.map printed)

end Event

end FormatSettings.CommandLine
