import CoolLang.Analysis.Basic
import CoolLang.Program.Parser
import CoolLang.Token.Scan

/-!
Analysing a source text: it is scanned and parsed, and then all passes are run in order. Diagnostics of
the passes never stop the analysis; a syntax error does.
-/

namespace CoolLang

structure Options where
  /-- Whether open declarations are inferred. -/
  inferring : Bool
  /-- How many walks each phase of inference may take. -/
  limit : Nat
deriving DecidableEq

namespace Options

def standard : Options :=
  ⟨true, 32⟩

/-- The number of walks that a phase may take; it takes one in any case. -/
def withLimit (options : Options) (limit : Nat) : Options :=
  { options with limit := max limit 1 }

end Options

/-- Why there is no analysis of a text. -/
inductive CompileError where
  /-- No program begins like this; with the faults of the whole scan. -/
  | unparsable (fault : Diagnostic) (scanned : List Diagnostic)
  | internal (reason : String)
  /-- A pass and the scope tree differ. -/
  | drift (cause : ScopeDrift)

namespace CompileError

def message : CompileError → String
  | unparsable fault _ => fault.text
  | internal reason => "internal error: " ++ reason
  | drift cause =>
      "the inference walk diverged from the scope tree: " ++ cause.message

end CompileError

structure Compiled where
  analysis : Analysis
  /-- Of the scanner first, then of each pass. -/
  found : List Diagnostic
  /-- The number of inference walks. -/
  walks : Nat

namespace Compiled

/-- Whether there is nothing to blame the text for. -/
def isClean (compiled : Compiled) : Bool :=
  compiled.found.isEmpty

end Compiled

namespace Analysis

/-- Infers open declarations; what checking has found gives way to what verifying finds with the types
inferred. -/
def inferAndVerify (limit : Nat) (analysis : Analysis) (found : List Diagnostic) :
    Except CompileError Compiled :=
  let (inferred, walks) := analysis.infer limit
  match walks with
  | .error drift => .error (.drift drift)
  | .ok walks =>
      let ((verified, violations), outcome) := inferred.verify
      match outcome with
      | .error drift => .error (.drift drift)
      | .ok () => .ok ⟨verified, found ++ violations, walks⟩

/-- Runs all passes over a program whose text has been scanned with those faults. -/
def complete (options : Options) (scanned : List Diagnostic) (program : Program) :
    Except CompileError Compiled :=
  let (collected, redefined) := (ofProgram program).collect
  let (built, misdeclared) := collected.build
  let (checked, violations) := built.check
  let found := scanned ++ redefined ++ misdeclared
  if options.inferring then checked.inferAndVerify options.limit found
  else .ok ⟨checked, found ++ violations, 0⟩

/-- Runs all passes over what a scanned text is parsed to, if it is a program. -/
def ofParsed (options : Options) (scanned : List Diagnostic) :
    Except SyntaxError Program → Except CompileError Compiled
  | .ok program => complete options scanned program
  | .error (.unexpectedToken lexeme position) =>
      .error (.unparsable ⟨position, .unexpected lexeme⟩ scanned)
  | .error (.internal reason) => .error (.internal reason)

end Analysis

/-- Analyses a source text. -/
def compile (options : Options) (source : String) : Except CompileError Compiled :=
  let scan := Scan.ofSource source
  Analysis.ofParsed options scan.errors (Program.parse scan.tokens)

end CoolLang
