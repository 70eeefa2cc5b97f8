import FormatSettings.CommandLine.Help
import FormatSettings.CommandLine.Scan
import FormatSettings.Failure
import FormatSettings.Files.Disk
import FormatSettings.Keys

namespace FormatSettings.CommandLine

inductive ConfigOption
  | config
  | noConfig
  | constructorInitializerIndent
  | expressionIndent
  | cascadeIndent
  | blockIndent
  | fix
  | spaces
  | tabs
  | lineEnding
  | pageWidth
  | indent
  | profile
  | pyproject
  | help
  deriving Repr, DecidableEq

def configSpecs : List (Spec ConfigOption) :=
  let valued (o : ConfigOption) (long : String) : Spec ConfigOption := ⟨o, long, none, true⟩
  let flag (o : ConfigOption) (long : String) : Spec ConfigOption := ⟨o, long, none, false⟩
  [valued .config "--config", flag .noConfig "--no-config",
   valued .constructorInitializerIndent "--constructor-initializer-indent",
   valued .expressionIndent "--expression-indent", valued .cascadeIndent "--cascade-indent",
   valued .blockIndent "--block-indent", valued .fix "--fix", flag .spaces "--spaces",
   flag .tabs "--tabs", valued .lineEnding "--line-ending", valued .pageWidth "--page-width",
   valued .indent "--indent", valued .profile "--profile", flag .pyproject "--pyproject",
   ⟨.help, "--help", some 'h', false⟩]

abbrev Given := List (ConfigOption × Option String)

namespace Given

def last? (g : Given) (o : ConfigOption) : Option String :=
  (g.reverse.lookup o).join

def allOf (g : Given) (o : ConfigOption) : List String :=
  g.filterMap fun e => if e.1 == o then e.2 else none

def isGiven (g : Given) (o : ConfigOption) : Bool :=
  g.any (·.1 == o)

def order (g : Given) : List ConfigOption :=
  (g.map (·.1)).eraseDups

end Given

def ConfigOption.key? : ConfigOption → Option String
  | .config => some Key.sources
  | .noConfig => some Key.noConfig
  | .constructorInitializerIndent => some Key.constructorInitializerIndent
  | .expressionIndent => some Key.expressionIndent
  | .cascadeIndent => some Key.cascadeIndent
  | .blockIndent => some Key.blockIndent
  | .fix => some Key.fixes
  | .spaces => some Key.insertSpaces
  | .tabs => some Key.insertSpaces
  | .lineEnding => some Key.lineEnding
  | .pageWidth => some Key.pageWidth
  | .indent => some Key.indent
  | .profile => some Key.profile
  | .pyproject => some Key.shared
  | .help => none

def spelling (o : ConfigOption) : String :=
  ((configSpecs.find? (·.option == o)).map Spec.long).getD ""

def invalidText (o : ConfigOption) (text : String) : String :=
  "Invalid value for '" ++ spelling o ++ "': " ++ text

def isIntegerOption : ConfigOption → Bool
  | .constructorInitializerIndent => true
  | .expressionIndent => true
  | .cascadeIndent => true
  | .blockIndent => true
  | .pageWidth => true
  | .indent => true
  | _ => false

def choice? (s : String) : Option LineEnding :=
  LineEnding.all.find? fun e => e.token == String.ofList (s.toList.map Char.toLower)

inductive Refusal
  | misuse (text : String)
  | failure (f : Failure)

def checkInteger (o : ConfigOption) (s : String) : Except Refusal Unit :=
  match Text.readInteger? s.toList with
  | some _ => .ok ()
  | none => .error (.misuse (invalidText o (Text.quote s ++ " is not a valid integer.")))

def checkChoice (o : ConfigOption) (s : String) : Except Refusal Unit :=
  match choice? s with
  | some _ => .ok ()
  | none =>
    let choices := ", ".intercalate (LineEnding.all.map fun e => Text.quote e.token)
    .error (.misuse (invalidText o (Text.quote s ++ " is not one of " ++ choices ++ ".")))

def checkFile [Host] (d : Disk) (o : ConfigOption) (s : String) : Except Refusal Unit :=
  let refuse (text : String) : Except Refusal Unit :=
    .error (.misuse (invalidText o ("File " ++ Text.quote s ++ text)))
  if s.toList.contains '\x00' then .error (.failure (.value .nullInPath))
  else match d.statText s with
    | .error _ => refuse " does not exist."
    | .ok .directory => refuse " is a directory."
    | .ok _ => .ok ()

def checkOption [Host] (d : Disk) (g : Given) (o : ConfigOption) : Except Refusal Unit :=
  if isIntegerOption o then (g.last? o).forM (checkInteger o)
  else match o with
    | .lineEnding => (g.last? o).forM (checkChoice o)
    | .config => (g.allOf o).forM (checkFile d o)
    | _ => .ok ()

def checkOptions [Host] (d : Disk) (g : Given) : Except Refusal Unit :=
  g.order.forM (checkOption d g)

structure Request where
  profile : Option String
  indent : Option Int
  pageWidth : Option Int
  lineEnding : Option LineEnding
  insertSpaces : Option Bool
  fixes : List String
  blockIndent : Option Int
  cascadeIndent : Option Int
  expressionIndent : Option Int
  constructorInitializerIndent : Option Int
  configFiles : List String
  noConfig : Bool
  forSharedFile : Bool
  order : List String

namespace Given

def integer? (g : Given) (o : ConfigOption) : Option Int :=
  (g.last? o).bind fun s => Text.readInteger? s.toList

def insertSpaces? (g : Given) : Option Bool :=
  g.reverse.findSome? fun e => match e.1 with
    | .spaces => some true
    | .tabs => some false
    | _ => none

def request (g : Given) : Request where
  profile := g.last? .profile
  indent := g.integer? .indent
  pageWidth := g.integer? .pageWidth
  lineEnding := (g.last? .lineEnding).bind choice?
  insertSpaces := g.insertSpaces?
  fixes := g.allOf .fix
  blockIndent := g.integer? .blockIndent
  cascadeIndent := g.integer? .cascadeIndent
  expressionIndent := g.integer? .expressionIndent
  constructorInitializerIndent := g.integer? .constructorInitializerIndent
  configFiles := g.allOf .config
  noConfig := g.isGiven .noConfig
  forSharedFile := g.isGiven .pyproject
  order := ((g.order ++ configSpecs.map Spec.option).filterMap ConfigOption.key?).eraseDups

end Given

end FormatSettings.CommandLine
