import FormatSettings.CommandLine.ShowConfig
import FormatSettings.Log.Record
import FormatSettings.Log.Setup

/-!
A run of the program: the flags before the command set the log level, then the command runs. Words that
do not fit together end the run before the command; so does a request for help.
-/

namespace FormatSettings.CommandLine

inductive GroupFlag
  | verbose
  | quiet
  | help
  deriving Repr, DecidableEq

def groupSpecs : List (Spec GroupFlag) :=
  [⟨.quiet, "--quiet", some 'q', false⟩, ⟨.verbose, "--verbose", some 'v', false⟩,
   ⟨.help, "--help", some 'h', false⟩]

def helpSpecs : List (Spec Unit) :=
  [⟨(), "--help", some 'h', false⟩]

inductive Ending
  | success
  | misuse (text : String)
  | refused (code : Nat) (message : String)
  | failed (failure : Failure)

namespace Ending

def exitCode : Ending → Nat
  | .success => ExitCode.success
  | .misuse _ => ExitCode.misuse
  | .refused code _ => code
  | .failed _ => ExitCode.failure

def errorText : Ending → String
  | .misuse text => text
  | .refused _ message => lines ["Error: " ++ message]
  | _ => ""

/-- How a command ends that failed: wrong tokens and unusable settings are refused. -/
def ofFailure : Failure → Ending
  | .usage fault => .refused ExitCode.usageError fault.message
  | .option fault =>
    .refused ExitCode.configError ("Invalid formatter options: " ++ fault.message)
  | f => .failed f

def ofOutcome : Except Failure Unit → Ending
  | .ok () => .success
  | .error f => ofFailure f

def settled : Except Failure Ending → Ending
  | .ok e => e
  | .error f => .failed f

def ofScanFault (usage path : String) (fault : ScanFault) : Ending :=
  match fault with
  | .unknownOption _ => .misuse (misuseText usage path fault.message)
  | _ => .misuse (lines ["Error: " ++ fault.message])

end Ending

structure Run where
  level : Option Nat
  notices : List Notice
  output : String
  ending : Ending

namespace Run

def ended (e : Ending) : Run :=
  ⟨none, [], "", e⟩

def helped (text : String) : Run :=
  ⟨none, [], text, .success⟩

def ofTranscript [Host] (level : Nat) (t : Transcript Ending) : Run :=
  let done := t.events.takeWhile fun e => !e.breaksOff level
  { level := some level
    notices := done.filterMap (·.logged? level)
    output := Event.outputOf done
    ending := if t.events.any (·.breaksOff level) then .failed .tooDeep else .settled t.outcome }

def isShort (level : Nat) : Bool :=
  Log.RecordFormat.forLevel level == .short

def logLines (r : Run) : String :=
  lines (r.notices.map fun n => Log.line n.severity.number n.message.text)

def errorOutput (r : Run) : String :=
  (if r.level.any isShort then r.logLines else "") ++ r.ending.errorText

end Run

structure Setting where
  program : String
  levelVariable : Option String
  disk : Disk

namespace Setting

def commandPath (s : Setting) (c : Command) : String :=
  s.program ++ " " ++ c.name

def extraText : List String → String
  | [word] => "Got unexpected extra argument (" ++ word ++ ")"
  | words => "Got unexpected extra arguments (" ++ " ".intercalate words ++ ")"

def misuse (s : Setting) (c : Command) (text : String) : Ending :=
  .misuse (misuseText (commandUsage s.program c) (s.commandPath c) text)

def withoutOperands (s : Setting) (c : Command) (operands : List String) (t : Transcript Ending) :
    Transcript Ending :=
  if operands.isEmpty then t else pure (s.misuse c (extraText operands))

def sayAndEnd (text : String) : Transcript Ending := do
  .print text
  return .success

def runConfig [Host] (s : Setting) (words : List String) : Transcript Ending :=
  match scan configSpecs true words with
  | .error fault =>
    pure (.ofScanFault (commandUsage s.program .config) (s.commandPath .config) fault)
  | .ok found =>
    let given : Given := found.options
    if given.isGiven .help then sayAndEnd (commandHelp s.program .config)
    else match checkOptions s.disk given with
      | .error (.misuse text) => pure (s.misuse .config text)
      | .error (.failure f) => pure (.failed f)
      | .ok () =>
        s.withoutOperands .config found.operands
          (let t := showConfig given.request s.disk
           ⟨t.events, .ok (.ofOutcome t.outcome)⟩)

def runPlain (s : Setting) (c : Command) (words : List String) (output : String) :
    Transcript Ending :=
  match scan helpSpecs true words with
  | .error fault => pure (.ofScanFault (commandUsage s.program c) (s.commandPath c) fault)
  | .ok found =>
    if !found.options.isEmpty then sayAndEnd (commandHelp s.program c)
    else s.withoutOperands c found.operands (sayAndEnd output)

def rightAligned (width : Nat) (s : String) : String :=
  String.ofList (List.replicate (width - s.length) ' ') ++ s

def leftAligned (width : Nat) (s : String) : String :=
  s ++ String.ofList (List.replicate (width - s.length) ' ')

def profileLine (width : Nat) (p : Profile) : String :=
  (if p == Profile.fallback then "*" else " ") ++ " " ++
    rightAligned 2 (Text.showNat p.code) ++ "  " ++ leftAligned width p.label ++ "  " ++
    p.description

def profileList : String :=
  let width := (Profile.all.map (·.label.length)).foldl max 0
  lines (Profile.all.map (profileLine width))

def runCommand [Host] (s : Setting) (c : Command) (words : List String) : Transcript Ending :=
  match c with
  | .config => s.runConfig words
  | .profiles => s.runPlain .profiles words profileList
  | .version => s.runPlain .version words (lines [programVersion])

def countOf (flags : List (GroupFlag × Option String)) (f : GroupFlag) : Int :=
  Int.ofNat (flags.countP (·.1 == f))

def groupMisuse (s : Setting) (text : String) : Ending :=
  .misuse (misuseText (groupUsage s.program) s.program text)

def scanGroup (s : Setting) (words : List String) : Except Run (Scan GroupFlag) :=
  match scan groupSpecs false words with
  | .error fault => .error (.ended (.ofScanFault (groupUsage s.program) s.program fault))
  | .ok found =>
    if found.options.any (·.1 == .help) then .error (.helped (groupHelp s.program))
    else .ok found

def unknownCommand (s : Setting) (word : String) (rest : List String) : Run :=
  let unknown := .ended (s.groupMisuse ("No such command " ++ Text.quote word ++ "."))
  if word.startsWith "-" then
    match s.scanGroup (word :: rest) with
    | .error run => run
    | .ok _ => unknown
  else unknown

def levelText (env : Option Nat) (flags : Severity) : String :=
  "Log level: env=" ++ (Value.ofOption (fun n => .int (Int.ofNat n)) env).shown ++ " cli=" ++
    Text.showNat flags.number

/-- The log level of a run: that of the environment, else that of the flags. -/
def levelFor (env : Option Nat) (flags : Severity) : Nat :=
  env.getD flags.number

variable [Host]

def atLevel (s : Setting) (flags : List (GroupFlag × Option String)) (go : Transcript Ending) : Run :=
  match Log.ofFlags (countOf flags .verbose) (countOf flags .quiet) with
  | .error fault => .ended (.ofFailure (.usage fault))
  | .ok severity =>
    match Log.ofEnvironment? s.levelVariable with
    | .error f => .ended (.failed f)
    | .ok env => .ofTranscript (levelFor env severity) do
      .ofReport (Report.debug (levelText env severity))
      go

def run (s : Setting) (words : List String) : Run :=
  match s.scanGroup words with
  | .error run => run
  | .ok found =>
    match found.operands with
    | [] => s.atLevel found.options (sayAndEnd (groupHelp s.program))
    | word :: rest =>
      match Command.named? word with
      | none => s.unknownCommand word rest
      | some c => s.atLevel found.options (s.runCommand c rest)

end Setting

end FormatSettings.CommandLine
