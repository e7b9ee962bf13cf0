import CoolLang.Grammar.Derivation
import CoolLang.ShiftReduce.Replay

/-!
Parse trees. A tree has tokens at its leaves and rules at its inner nodes; it stands for a symbol if
every rule's children stand for the symbols of its right-hand side (`ParseTree.StandsFor`). The tree of
a replayed derivation is built by `ParseTree.builder`, and what a tree stands for derives the terminals
at its leaves (`ParseTree.StandsFor.derives`).
-/

namespace CoolLang

inductive ParseTree (θ : Type) where
  | leaf (token : θ)
  | node (rule : RuleId) (children : List (ParseTree θ))

namespace ParseTree

variable {θ α : Type}

mutual

/-- The tokens at the leaves, from left to right. -/
def frontier : ParseTree θ → List θ
  | .leaf token => [token]
  | .node _ children => frontiers children

/-- The tokens at the leaves of several trees. -/
def frontiers : List (ParseTree θ) → List θ
  | [] => []
  | tree :: trees => frontier tree ++ frontiers trees

end

mutual

/-- The rules of the inner nodes, those of the children before their parent's. -/
def reductions : ParseTree θ → List RuleId
  | .leaf _ => []
  | .node rule children => allReductions children ++ [rule]

/-- The rules of the inner nodes of several trees. -/
def allReductions : List (ParseTree θ) → List RuleId
  | [] => []
  | tree :: trees => reductions tree ++ allReductions trees

end

mutual

/-- A tree that a grammar has for a symbol; `terminalOf` says which terminal a token is. -/
inductive StandsFor (grammar : Grammar α) (terminalOf : θ → Terminal) :
    Symbol → ParseTree θ → Prop where
  | leaf (token : θ) : StandsFor grammar terminalOf (.terminal (terminalOf token)) (.leaf token)
  | node {number : RuleId} {rule : Rule α} {children : List (ParseTree θ)}
      (known : grammar.rule? number = some rule)
      (inside : StandForAll grammar terminalOf rule.right children) :
      StandsFor grammar terminalOf (.nonterminal rule.left) (.node number children)

/-- Trees that a grammar has for the symbols of a string, one each. -/
inductive StandForAll (grammar : Grammar α) (terminalOf : θ → Terminal) :
    List Symbol → List (ParseTree θ) → Prop where
  | nil : StandForAll grammar terminalOf [] []
  | cons {symbol : Symbol} {symbols : List Symbol} {tree : ParseTree θ} {trees : List (ParseTree θ)}
      (first : StandsFor grammar terminalOf symbol tree)
      (others : StandForAll grammar terminalOf symbols trees) :
      StandForAll grammar terminalOf (symbol :: symbols) (tree :: trees)

end

/-- Builds the parse tree of a derivation. -/
def builder {ε : Type} : Reducer θ RuleId (ParseTree θ) ε where
  shift token := .ok (.leaf token)
  reduce rule children := .ok (.node rule children)

mutual

theorem StandsFor.derives {grammar : Grammar α} {terminalOf : θ → Terminal} {symbol : Symbol}
    {tree : ParseTree θ} (stands : StandsFor grammar terminalOf symbol tree) :
    grammar.Derives [symbol] (tree.frontier.map fun token => .terminal (terminalOf token)) := by
  cases stands with
  | leaf token => exact .refl _
  | node known inside =>
      have step := Grammar.Rewrites.replace [] [] known
      simp only [List.nil_append, List.append_nil] at step
      rw [frontier]
      exact .head step inside.derives

theorem StandForAll.derives {grammar : Grammar α} {terminalOf : θ → Terminal}
    {symbols : List Symbol} {trees : List (ParseTree θ)}
    (stand : StandForAll grammar terminalOf symbols trees) :
    grammar.Derives symbols ((frontiers trees).map fun token => .terminal (terminalOf token)) := by
  cases stand with
  | nil => exact .refl _
  | cons first others =>
      rw [frontiers, List.map_append]
      exact first.derives.append others.derives

end

end ParseTree

end CoolLang
