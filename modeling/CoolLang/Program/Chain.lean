import CoolLang.Grammar.Derivation
import CoolLang.Program.Phrase
import CoolLang.Program.Rendering

/-!
Chains of operators. A chain is an operand and any number of operators with one more operand each. How the
operators nest is a matter of their levels (`OperatorTree.Nested`); `OperatorTree.ofChain` nests a chain.
-/

namespace CoolLang

/-- How tightly an operator binds. -/
def Operator.level : Operator → Nat
  | .less | .lessEqual | .equal => 0
  | .add | .sub => 1
  | .mul | .div => 2

/-- Operands with operators between them, nested in some way. -/
inductive OperatorTree where
  | operand (expr : Expr)
  | join (operator : Operator) (left right : OperatorTree)

namespace OperatorTree

/-- The expression of a tree. Each operator begins where its left operand does. -/
def expr : OperatorTree → Expr
  | operand expr => expr
  | join operator left right => .binary ⟨left.expr.position, none⟩ operator left.expr right.expr

/-- The first operand of the chain. -/
def first : OperatorTree → Expr
  | operand expr => expr
  | join _ left _ => left.first

/-- The operators of the chain from left to right, each with the operand behind it. -/
def links : OperatorTree → List (Operator × Expr)
  | operand _ => []
  | join operator left right => left.links ++ (operator, right.first) :: right.links

/-- Operators that bind tighter are further inside, and those of one level associate to the left. -/
def Nested : OperatorTree → Prop
  | operand _ => True
  | join operator left right =>
      left.Nested ∧ right.Nested ∧ (∀ link ∈ left.links, operator.level ≤ link.1.level) ∧
        ∀ link ∈ right.links, operator.level < link.1.level

/-- Goes on with an operator and an operand. The operator takes the operands at the end that are joined by
operators which bind no less tightly. -/
def extend (tree : OperatorTree) (operator : Operator) (last : Expr) : OperatorTree :=
  match tree with
  | operand expr => join operator (operand expr) (operand last)
  | join other left right =>
      if other.level < operator.level then join other left (right.extend operator last)
      else join operator (join other left right) (operand last)

/-- Goes on with several operators and operands. -/
def extendAll (tree : OperatorTree) (links : List (Operator × Expr)) : OperatorTree :=
  links.foldl (fun tree link => tree.extend link.1 link.2) tree

def ofChain (first : Expr) (links : List (Operator × Expr)) : OperatorTree :=
  (operand first).extendAll links

end OperatorTree

/-- The kinds of the tokens that are operators between two operands. -/
def TokenKind.operators : List TokenKind :=
  [plus, minus, star, slash, less, lessEqual, equal]

namespace Program

/-- Whether tokens are derived from the phrase for operands that no operator is part of. -/
def IsAtom (tokens : List Token) : Prop :=
  grammar.Derives [Phrase.atom] (tokens.map fun token => .terminal token.terminal)

/-- Whether a program can have an expression between these tokens. -/
def ExpectsExpr (before after : List Token) : Prop :=
  grammar.Derives [Phrase.program]
    ((before.map fun token => .terminal token.terminal) ++
      (Phrase.expr : Symbol) :: after.map fun token => .terminal token.terminal)

/-- The tokens of a chain. -/
def chainTokens (first : List Token) (links : List (Token × List Token)) : List Token :=
  first ++ links.flatMap fun link => link.1 :: link.2

end Program

end CoolLang
