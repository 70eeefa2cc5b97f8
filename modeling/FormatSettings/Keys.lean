namespace FormatSettings.Key

def formatting : String := "formatting"

def profile : String := "profile"

def indent : String := "indent"

def pageWidth : String := "page_width"

def lineEnding : String := "line_ending"

def insertSpaces : String := "insert_spaces"

def fixes : String := "fixes"

def block : String := "block"

def cascade : String := "cascade"

def expression : String := "expression"

def constructorInitializer : String := "constructor_initializer"

def style : String := "style"

def bracesOnBlockLike : String := "outer_braces_on_block_like"

def bracesOnCollectionLiterals : String := "outer_braces_on_collection_literals"

def bracesOnEnum : String := "outer_braces_on_enum"

def tryClauseOnNewline : String := "outer_try_clause_on_newline"

def ifElseOnNewline : String := "outer_if_else_on_newline"

def widths : String := "tab_sizes"

def sources : String := "config_files"

def blockIndent : String := "block_indent"

def cascadeIndent : String := "cascade_indent"

def expressionIndent : String := "expression_indent"

def constructorInitializerIndent : String := "constructor_initializer_indent"

def noConfig : String := "no_config"

def shared : String := "pyproject"

def tool : String := "tool"

def program : String := "polisher"

end FormatSettings.Key
