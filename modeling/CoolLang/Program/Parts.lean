import CoolLang.Program.Phrase
import CoolLang.ShiftReduce.ParseTree

/-!
The expressions of a program, and where they are written. `Program.exprs` lists all expressions of a
syntax tree, each before those inside it; `ParseTree.exprPhrases` lists in the same order the phrases of a
parse tree that they are made of. `Expr.literal?` and `Token.literal?` are what a literal stands for in the
one and in the other.
-/

namespace CoolLang

namespace Expr

mutual

/-- The expressions inside an expression. -/
def inside : Expr → List Expr
  | .assign _ _ value => value :: inside value
  | .dispatch _ receiver _ _ args => insideOption receiver ++ insideAll args
  | .cond _ test yes no => test :: inside test ++ (yes :: inside yes ++ no :: inside no)
  | .loop _ test body => test :: inside test ++ body :: inside body
  | .block _ body => insideAll body
  | .letIn _ bindings body => insideBindings bindings ++ body :: inside body
  | .caseOf _ scrutinee branches => scrutinee :: inside scrutinee ++ insideBranches branches
  | .isVoid _ operand => operand :: inside operand
  | .not _ operand => operand :: inside operand
  | .complement _ operand => operand :: inside operand
  | .binary _ _ left right => left :: inside left ++ right :: inside right
  | .new .. => []
  | .identifier .. => []
  | .integer .. => []
  | .string .. => []
  | .boolean .. => []

def insideOption : Option Expr → List Expr
  | none => []
  | some expr => expr :: inside expr

def insideAll : List Expr → List Expr
  | [] => []
  | expr :: exprs => expr :: inside expr ++ insideAll exprs

def insideBindings : List (Binding Expr) → List Expr
  | [] => []
  | ⟨_, _, init⟩ :: bindings => insideOption init ++ insideBindings bindings

def insideBranches : List (Branch Expr) → List Expr
  | [] => []
  | ⟨_, _, body⟩ :: branches => body :: inside body ++ insideBranches branches

end

end Expr

def Feature.exprs : Feature → List Expr
  | .attribute decl => Expr.insideOption decl.init
  | .method decl => decl.body :: decl.body.inside

def ClassDecl.exprs (decl : ClassDecl) : List Expr :=
  decl.features.flatMap Feature.exprs

/-- All expressions of a program, each before those inside it. -/
def Program.exprs (program : Program) : List Expr :=
  program.classes.flatMap ClassDecl.exprs

/-! ### Phrases -/

namespace Phrase

/-- The phrases that stand for expressions. -/
def exprs : List Phrase :=
  [expr, truth, comparison, arith, term, factor, voidFactor, callFactor, atom, memberCall]

/-- Whether a rule is for a phrase that stands for an expression. -/
def makesExpr (rule : Rule BuildAction) : Bool :=
  exprs.any fun phrase => phrase.nonterminal = rule.left

/-- Whether the phrase of a rule is just another phrase, or one in parentheses. -/
def wraps (rule : Rule BuildAction) : Bool :=
  match rule.right with
  | [.nonterminal _] => true
  | right => right = [(TokenKind.leftParen : Symbol), (Phrase.expr : Symbol),
      (TokenKind.rightParen : Symbol)]

end Phrase

namespace ParseTree

mutual

/-- The phrases of a tree that stand for expressions, each before those inside it. A phrase that just
wraps another one stands for the same expression, and the outermost one is listed; `listed` tells whether
the tree itself is wrapped. -/
def exprPhrases (listed : Bool) : ParseTree Token → List (ParseTree Token)
  | .leaf _ => []
  | .node number children =>
      match Program.grammar.rule? number with
      | none => []
      | some rule =>
          if Phrase.makesExpr rule then
            (if listed then [] else [.node number children]) ++
              allExprPhrases (Phrase.wraps rule) children
          else allExprPhrases false children

/-- The phrases of several trees that stand for expressions. -/
def allExprPhrases (listed : Bool) : List (ParseTree Token) → List (ParseTree Token)
  | [] => []
  | tree :: trees => exprPhrases listed tree ++ allExprPhrases listed trees

end

end ParseTree

/-! ### Literals -/

/-- The value of a literal. -/
inductive Literal where
  | integer (value : Int)
  | string (value : String)
deriving DecidableEq

/-- The value of an expression that is a literal, and where it is written. -/
def Expr.literal? : Expr → Option (Position × Literal)
  | .integer note value => some (note.position, .integer value)
  | .string note value => some (note.position, .string value)
  | _ => none

/-- The value of a token that is a literal, and where it is written. -/
def Token.literal? (token : Token) : Option (Position × Literal) :=
  match token.kind with
  | .integer => some (token.position, .integer (Text.integerLiteral token.lexeme))
  | .string => some (token.position, .string (Text.stringLiteral token.lexeme))
  | _ => none

end CoolLang
