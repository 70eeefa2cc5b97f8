namespace FormatSettings

def programName : String := "polisher"

def programVersion : String := "0.1.0"

def levelVariableName : String := "POLISHER_LOG_LEVEL"

def sharedSection : String := "tool.polisher"

def blockStart : String := "# === BEGIN[TOML] ==="

def blockEnd : String := "# === END[TOML] ==="

namespace ExitCode

def success : Nat := 0

def failure : Nat := 1

def misuse : Nat := 2

def usageError : Nat := 64

def configError : Nat := 78

end ExitCode

end FormatSettings
