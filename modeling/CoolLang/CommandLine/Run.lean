import CoolLang.Analysis.Compile
import CoolLang.CommandLine.Request

/-!
Serving a command line over any kind of files: the parsing table is written first, if it is asked for,
then the source is read and analysed. The listings come after the diagnostics; a text that does not
parse has none.
-/

namespace CoolLang

/-- What a run needs of the files around it. -/
structure FileAccess (m : Type → Type) where
  /-- The bytes of the file at a path, if it can be read. -/
  read : String → m (Option ByteArray)
  /-- Puts a text into the file at a path. Returns whether that was possible. -/
  write : String → String → m Bool

inductive Outcome where
  /-- The command line was not a proper one. -/
  | misused
  | unwritable (path : String)
  | unreadable (path : String)
  | unanalysed (reason : String)
  /-- The source was analysed, with something to blame it for or not. -/
  | analysed (clean : Bool) (output : String)
deriving DecidableEq

namespace Outcome

/-- The exit code. -/
def code : Outcome → UInt32
  | misused => 2
  | analysed true _ => 0
  | _ => 1

/-- What goes to standard output. -/
def output : Outcome → String
  | analysed _ output => output
  | _ => ""

/-- What goes to standard error. -/
def complaint : Outcome → String
  | misused =>
      "usage: [--dump-table PATH] [--dump-context] [--dump-scope] [--no-infer] SOURCE\n"
  | unwritable path => "failed to write the parsing table to " ++ path ++ "\n"
  | unreadable path => "failed to read " ++ path ++ "\n"
  | unanalysed reason => "failed to analyze the program: " ++ reason ++ "\n"
  | analysed _ _ => ""

end Outcome

/-- Diagnostics, one a line. -/
def diagnosticLines (diagnostics : List Diagnostic) : String :=
  String.join (diagnostics.map fun diagnostic => diagnostic.text ++ "\n")

namespace Request

/-- What is printed of an analysed source: diagnostics, then the listings asked for, each closed by an
empty line. -/
def report (request : Request) (compiled : Compiled) : String :=
  let hierarchy := compiled.analysis.hierarchy
  let types := if request.listsTypes then hierarchy.listing ++ "\n" else ""
  let scopes :=
    if request.listsScopes then compiled.analysis.tree.listing hierarchy ++ "\n" else ""
  diagnosticLines compiled.found ++ types ++ scopes

/-- The outcome for a source that has been read. -/
def analyse (request : Request) (source : String) : Outcome :=
  match compile { Options.standard with inferring := request.infers } source with
  | .ok compiled => .analysed compiled.isClean (request.report compiled)
  | .error (.unparsable fault scanned) => .analysed false (diagnosticLines (scanned ++ [fault]))
  | .error error => .unanalysed error.message

/-- Reads the source and analyses it. -/
def serveSource {m : Type → Type} [Monad m] (files : FileAccess m) (request : Request) :
    m Outcome := do
  match (← files.read request.input).bind String.fromUTF8? with
  | some source => return request.analyse source
  | none => return .unreadable request.input

/-- Writes the table, if it is asked for, and then sees to the source. -/
def serve {m : Type → Type} [Monad m] (files : FileAccess m) (request : Request) :
    m Outcome := do
  match request.tablePath with
  | none => request.serveSource files
  | some path =>
      if ← files.write path (Program.table.listing Program.grammar) then
        request.serveSource files
      else
        return .unwritable path

end Request

/-- Runs a command line. -/
def runCommandLine {m : Type → Type} [Monad m] (files : FileAccess m) (args : List String) :
    m Outcome :=
  match Request.ofArgs? args with
  | none => return .misused
  | some request => request.serve files

end CoolLang
