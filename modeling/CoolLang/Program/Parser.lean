import CoolLang.Automaton.Table
import CoolLang.Program.Phrase
import CoolLang.ShiftReduce.Replay
import CoolLang.Source.Diagnostic

/-!
Parsing a program: the tokens are run through the table of the language's grammar, and the recorded
steps are replayed with the rules' actions.
-/

namespace CoolLang

inductive SyntaxError where
  /-- The first token that no program can have there. -/
  | unexpectedToken (lexeme : String) (position : Position)
  /-- What no list of tokens that ends in an end-of-input token leads to. -/
  | internal (reason : String)

namespace SyntaxError

def message : SyntaxError → String
  | unexpectedToken lexeme position => (Diagnostic.mk position (.unexpected lexeme)).text
  | internal reason => "malformed parser state: " ++ reason

end SyntaxError

/-- Why a rule's action built nothing. -/
inductive BuildError where
  | missingAction (rule : RuleId)
  | unexpectedValues (rule : RuleId)

def BuildError.message : BuildError → String
  | missingAction rule => "no reduction action for rule " ++ toString rule
  | unexpectedValues rule => "unexpected values on the stack for rule " ++ toString rule

namespace Program

def table : ParseTable :=
  ParseTable.generate grammar

def reducer : Reducer Token RuleId Value BuildError where
  shift token := .ok (.token token)
  reduce rule values :=
    match (grammar.rule? rule).bind Rule.action with
    | none => .error (.missingAction rule)
    | some action =>
        match action values with
        | none => .error (.unexpectedValues rule)
        | some value => .ok value

/-- The program that a replay has built. -/
def ofReplay : Except (ReplayError BuildError) Value → Except SyntaxError Program
  | .ok (.program program) => .ok program
  | .ok _ => .error (.internal "unexpected root value")
  | .error error => .error (.internal (error.message BuildError.message))

/-- The program that tokens are found to be when the table has been run on them. -/
def ofRun (tokens : List Token) :
    Option (Except (ParseError StateId Token) (Derivation RuleId)) → Except SyntaxError Program
  | none => .error (.internal "the parser does not stop")
  | some (.error (.unexpectedToken token _ _)) =>
      .error (.unexpectedToken token.lexeme token.position)
  | some (.error error) => .error (.internal (error.message toString))
  | some (.ok derivation) => ofReplay (table.machine.replay reducer derivation tokens)

/-- The tree of a list of tokens, the last of which should be the end of input. -/
def parse (tokens : List Token) : Except SyntaxError Program :=
  ofRun tokens (table.parse Token.terminal tokens)

end Program

end CoolLang
