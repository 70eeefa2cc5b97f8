namespace FormatSettings.CommandLine

inductive Command
  | config
  | profiles
  | version
  deriving Repr, DecidableEq

namespace Command

def all : List Command :=
  [.config, .profiles, .version]

def name : Command → String
  | .config => "config"
  | .profiles => "profiles"
  | .version => "version"

def named? (s : String) : Option Command :=
  all.find? (·.name == s)

end Command

def lines (ls : List String) : String :=
  String.join (ls.map (· ++ "\n"))

def groupUsage (program : String) : String :=
  "Usage: " ++ program ++ " [OPTIONS] [COMMAND] [ARGS]..."

def commandUsage (program : String) (c : Command) : String :=
  "Usage: " ++ program ++ " " ++ c.name ++ " [OPTIONS]"

def misuseText (usage path text : String) : String :=
  lines [usage, "Try '" ++ path ++ " --help' for help.", "", "Error: " ++ text]

def groupHelp (program : String) : String :=
  lines [
    groupUsage program,
    "",
    "  Polisher: resolve and inspect formatter options.",
    "",
    "Options:",
    "  -q, --quiet    Only log errors.",
    "  -v, --verbose  Increase log verbosity (repeat up to three times for TRACE).",
    "  -h, --help     Show this message and exit.",
    "",
    "Commands:",
    "  config    Print the resolved formatter options as TOML.",
    "  profiles  List the available style profiles.",
    "  version   Show the current version of Polisher."]

def configHelp (program : String) : String :=
  lines [
    commandUsage program .config,
    "",
    "  Print the resolved formatter options as TOML.",
    "",
    "Options:",
    "  --config FILE                   Additional config file(s) to load and merge,",
    "                                  in order.",
    "  --no-config                     Do not discover polisher.toml / pyproject.toml",
    "                                  (explicit --config files still apply).",
    "  --constructor-initializer-indent INTEGER",
    "                                  Indent of the ':' on a wrapped constructor",
    "                                  initializer list.",
    "  --expression-indent INTEGER     Indent of one level of expression nesting.",
    "  --cascade-indent INTEGER        Indent of wrapped cascade sections.",
    "  --block-indent INTEGER          Indent of a block or collection body.",
    "  --fix FIX                       Style fix to apply; repeatable (doc-comments,",
    "                                  function-typedefs, named-default-separator,",
    "                                  optional-const, optional-new, single-cascade-",
    "                                  statements).",
    "  --spaces / --tabs               Indent with spaces or with tabs.",
    "  --line-ending [lf|crlf|cr]      Newline sequence to emit (inferred from the",
    "                                  input when omitted).",
    "  --page-width INTEGER            Number of columns the output should fit",
    "                                  within.",
    "  --indent INTEGER                Columns of padding prefixed to every output",
    "                                  line.",
    "  --profile NAME|CODE             Style profile (Dart Style, Expanded, Reserved",
    "                                  2, Reserved 3) or its code.",
    "  --pyproject                     Nest the output under [tool.polisher] for",
    "                                  pasting into pyproject.toml.",
    "  -h, --help                      Show this message and exit.",
    "",
    "  Precedence (lowest to highest): defaults, profile style, discovered config",
    "  file, --config files, command-line flags."]

def profilesHelp (program : String) : String :=
  lines [
    commandUsage program .profiles,
    "",
    "  List the available style profiles.",
    "",
    "Options:",
    "  -h, --help  Show this message and exit."]

def versionHelp (program : String) : String :=
  lines [
    commandUsage program .version,
    "",
    "  Show the current version of Polisher.",
    "",
    "Options:",
    "  -h, --help  Show this message and exit."]

def commandHelp (program : String) : Command → String
  | .config => configHelp program
  | .profiles => profilesHelp program
  | .version => versionHelp program

end FormatSettings.CommandLine
