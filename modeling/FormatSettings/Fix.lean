import FormatSettings.Text.Token

namespace FormatSettings

inductive Fix
  | docComments
  | functionTypedefs
  | namedDefaultSeparator
  | optionalConst
  | optionalNew
  | singleCascadeStatements
  deriving Repr, DecidableEq

namespace Fix

def all : List Fix :=
  [.docComments, .functionTypedefs, .namedDefaultSeparator, .optionalConst, .optionalNew,
   .singleCascadeStatements]

def name : Fix → String
  | .docComments => "DOC_COMMENTS"
  | .functionTypedefs => "FUNCTION_TYPEDEFS"
  | .namedDefaultSeparator => "NAMED_DEFAULT_SEPARATOR"
  | .optionalConst => "OPTIONAL_CONST"
  | .optionalNew => "OPTIONAL_NEW"
  | .singleCascadeStatements => "SINGLE_CASCADE_STATEMENTS"

def key : Fix → String
  | .docComments => "doc-comments"
  | .functionTypedefs => "function-typedefs"
  | .namedDefaultSeparator => "named-default-separator"
  | .optionalConst => "optional-const"
  | .optionalNew => "optional-new"
  | .singleCascadeStatements => "single-cascade-statements"

def label : Fix → String
  | .docComments => "Use triple slash for documentation comments"
  | .functionTypedefs => "Use new syntax for function type typedefs"
  | .namedDefaultSeparator => "Use '=' as named parameter default separator"
  | .optionalConst => "Remove 'const' keywords inside const context"
  | .optionalNew => "Remove all usages of 'new' keyword"
  | .singleCascadeStatements => "Remove unnecessary single cascades from expression statements"

def aliases : Fix → List String
  | .optionalNew => ["new"]
  | .singleCascadeStatements => ["single-cascades"]
  | _ => []

def spellings (f : Fix) : List String :=
  (f.key :: f.name :: f.aliases).map Text.foldToken

def allKeys : String :=
  ", ".intercalate (all.map key)

def parse? (token : String) : Option Fix :=
  all.find? (·.spellings.contains (Text.foldToken token))

end Fix

end FormatSettings
