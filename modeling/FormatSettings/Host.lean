import FormatSettings.Toml.Document
import FormatSettings.Toml.Uniform

/-!
What a program relies on beside its files and its words: the reader of documents, the right to look into
directories, and the room for values that are nested in one another.
-/

namespace FormatSettings

/-- Why a reader gives no table: it rejects the text, or an error comes out of it that is not meant for
its caller. -/
inductive ReadFault
  | rejected
  | escaped (error : String)

class Host where
  read : List Char → Except ReadFault Table
  /-- The directories in which no name may be looked up. -/
  isSealed : List String → Bool
  /-- Values nested more deeply than this cannot be shown. -/
  room : Nat

def Toml.table? (cs : List Char) : Option Table :=
  (parse? cs).filter fun t => entriesUniform t

/-- A host that reads every document and rejects all other texts, and where every directory is open. -/
instance Host.plain : Host where
  read cs := (Toml.table? cs).elim (.error .rejected) .ok
  isSealed _ := false
  room := 950

end FormatSettings
