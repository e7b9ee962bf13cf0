/-!
Command lines: the path of a source file, and options in any order before or after it. Each option is
given once at most; what follows `--` is no option.
-/

namespace CoolLang

/-- What a command line asks for. -/
structure Request where
  /-- The path of the source file. -/
  input : String
  /-- Where the parsing table is to be written. -/
  tablePath : Option String
  listsTypes : Bool
  listsScopes : Bool
  /-- Whether open declarations are inferred. -/
  infers : Bool
deriving DecidableEq

/-- The arguments read so far. -/
structure Arguments where
  input : Option String
  tablePath : Option String
  listsTypes : Bool
  listsScopes : Bool
  keepsOpen : Bool
deriving DecidableEq

namespace Arguments

def empty : Arguments :=
  ⟨none, none, false, false, false⟩

/-- The beginning of an option that brings its path along. -/
def tableOption : List Char :=
  "--dump-table=".toList

/-- Whether an argument can be a value. A single dash can. -/
def isValue (arg : String) : Bool :=
  arg == "-" || arg.toList.head? != some '-'

/-- A path, which is not empty, in a place that has none yet. -/
def place? (present : Option String) (path : String) : Option (Option String) :=
  if present.isSome || path.isEmpty then none else some (some path)

def takeInput (seen : Arguments) (path : String) : Option Arguments :=
  (place? seen.input path).map fun input => { seen with input := input }

def takeTablePath (seen : Arguments) (path : String) : Option Arguments :=
  (place? seen.tablePath path).map fun tablePath => { seen with tablePath := tablePath }

/-- Takes an argument that stands for itself. -/
def take (seen : Arguments) (arg : String) : Option Arguments :=
  if arg = "--dump-context" then
    if seen.listsTypes then none else some { seen with listsTypes := true }
  else if arg = "--dump-scope" then
    if seen.listsScopes then none else some { seen with listsScopes := true }
  else if arg = "--no-infer" then
    if seen.keepsOpen then none else some { seen with keepsOpen := true }
  else if tableOption.isPrefixOf arg.toList then
    seen.takeTablePath (String.ofList (arg.toList.drop tableOption.length))
  else if isValue arg then seen.takeInput arg
  else none

/-- Takes all arguments in order. -/
def takeAll : Arguments → List String → Option Arguments
  | seen, [] => some seen
  | seen, "--" :: paths => paths.foldlM takeInput seen
  | _, ["--dump-table"] => none
  | seen, "--dump-table" :: path :: args =>
      if isValue path then (seen.takeTablePath path).bind fun seen => takeAll seen args
      else none
  | seen, arg :: args => (seen.take arg).bind fun seen => takeAll seen args

end Arguments

/-- The request of a command line; none if it is not a proper one. -/
def Request.ofArgs? (args : List String) : Option Request := do
  let seen ← Arguments.empty.takeAll args
  let input ← seen.input
  return ⟨input, seen.tablePath, seen.listsTypes, seen.listsScopes, !seen.keepsOpen⟩

end CoolLang
