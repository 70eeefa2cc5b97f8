import FormatSettings.Toml.Line
import FormatSettings.Toml.Lines

/-!
Documents: pairs before the first header, then sections of a header and the pairs that follow it.
Reading one gives the table that it writes.
-/

namespace FormatSettings.Toml

structure Section where
  isItem : Bool
  path : List String
  pairs : List (List String × Value)

structure Document where
  pairs : List (List String × Value)
  sections : List Section

namespace Document

def addStatement (s : Statement) (d : Document) : Document :=
  match s with
  | .nothing => d
  | .pair path v => { d with pairs := (path, v) :: d.pairs }
  | .header isItem path => ⟨[], ⟨isItem, path, d.pairs⟩ :: d.sections⟩

def ofStatements (statements : List Statement) : Document :=
  statements.foldr addStatement ⟨[], []⟩

end Document

namespace Section

def apply (s : Section) (entries : Entries) : Option Entries :=
  open? (if s.isItem then openItem s.pairs else openTable s.pairs) s.path entries

end Section

namespace Document

def applySections : List Section → Entries → Option Entries
  | [], entries => some entries
  | s :: rest, entries => (s.apply entries).bind (applySections rest)

def entries? (d : Document) : Option Entries :=
  (assignAll d.pairs []).bind (applySections d.sections)

end Document

def readLines? : List (List Char) → Option (List Statement)
  | [] => some []
  | line :: lines =>
    (readLine? line).bind fun s => (readLines? lines).map fun ss => s :: ss

def readDocument? (cs : List Char) : Option Document :=
  (readLines? (splitLines cs)).map Document.ofStatements

def parse? (cs : List Char) : Option Table :=
  (readDocument? cs).bind fun d => d.entries?.map toTable

end FormatSettings.Toml
