import CoolLang.Proofs.Grammar.Beginning
import CoolLang.ShiftReduce.ParseTree

/-!
Parse trees and derivations. The rules of a tree in post-order, read backwards, are a rightmost
derivation of its leaves (`ParseTree.StandsFor.rightmostDerives`), and every rightmost derivation of a
word comes from trees in that way (`Grammar.RightmostDerives.exists_trees`). A string that derives a
word has trees for it (`Grammar.Derives.exists_trees`), and one that vanishes has trees without leaves.
-/

namespace CoolLang

variable {α θ : Type} {grammar : Grammar α} {terminalOf : θ → Terminal}

/-! ### Rightmost derivations -/

namespace Grammar.RightmostDerives

variable {numbers others : List RuleId} {first second third : List Symbol}

theorem trans (front : grammar.RightmostDerives numbers first second)
    (back : grammar.RightmostDerives others second third) :
    grammar.RightmostDerives (numbers ++ others) first third := by
  induction front with
  | refl => exact back
  | head before after known _ ih => exact .head before after known (ih back)

/-- A rightmost derivation goes on behind anything and in front of terminals. -/
theorem surround (steps : grammar.RightmostDerives numbers first second) (front : List Symbol)
    (back : List Terminal) :
    grammar.RightmostDerives numbers (front ++ first ++ back.map .terminal)
      (front ++ second ++ back.map .terminal) := by
  induction steps with
  | refl => exact .refl _
  | @head before after number rule numbers last known _ ih =>
      have wider := RightmostDerives.head (front ++ before) (after ++ back) known (by
        simpa only [List.append_assoc, List.map_append] using ih)
      simpa only [List.append_assoc, List.cons_append, List.map_append] using wider

end Grammar.RightmostDerives

namespace ParseTree

/-! ### Several trees -/

theorem frontiers_append (front back : List (ParseTree θ)) :
    frontiers (front ++ back) = frontiers front ++ frontiers back := by
  induction front with
  | nil => rfl
  | cons tree trees ih => rw [List.cons_append, frontiers, frontiers, ih, List.append_assoc]

theorem allReductions_append (front back : List (ParseTree θ)) :
    allReductions (front ++ back) = allReductions front ++ allReductions back := by
  induction front with
  | nil => rfl
  | cons tree trees ih =>
      rw [List.cons_append, allReductions, allReductions, ih, List.append_assoc]

theorem frontiers_singleton (tree : ParseTree θ) : frontiers [tree] = frontier tree := by
  rw [frontiers, frontiers, List.append_nil]

theorem allReductions_singleton (tree : ParseTree θ) : allReductions [tree] = reductions tree := by
  rw [allReductions, allReductions, List.append_nil]

namespace StandForAll

variable {front back : List Symbol} {trees trees' : List (ParseTree θ)}

theorem length_eq {symbols : List Symbol} (stand : StandForAll grammar terminalOf symbols trees) :
    trees.length = symbols.length := by
  induction trees generalizing symbols with
  | nil => cases stand; rfl
  | cons tree trees ih =>
      cases stand with
      | cons first others => rw [List.length_cons, List.length_cons, ih others]

theorem append (stand : StandForAll grammar terminalOf front trees)
    (stand' : StandForAll grammar terminalOf back trees') :
    StandForAll grammar terminalOf (front ++ back) (trees ++ trees') := by
  induction trees generalizing front with
  | nil => cases stand; exact stand'
  | cons tree trees ih =>
      cases stand with
      | cons first others => exact .cons first (ih others)

theorem split (stand : StandForAll grammar terminalOf (front ++ back) trees) :
    ∃ fronts backs, trees = fronts ++ backs ∧ StandForAll grammar terminalOf front fronts ∧
      StandForAll grammar terminalOf back backs := by
  induction front generalizing trees with
  | nil => exact ⟨[], trees, rfl, .nil, stand⟩
  | cons symbol front ih =>
      cases stand with
      | cons first others =>
          obtain ⟨fronts, backs, rfl, inFront, inBack⟩ := ih others
          exact ⟨_ :: fronts, backs, rfl, .cons first inFront, inBack⟩

theorem singleton {symbol : Symbol} (stand : StandForAll grammar terminalOf [symbol] trees) :
    ∃ tree, trees = [tree] ∧ StandsFor grammar terminalOf symbol tree := by
  cases stand with
  | cons first others =>
      cases others
      exact ⟨_, rfl, first⟩

/-- The children's trees put under one node for their rule. -/
theorem fold {number : RuleId} {rule : Rule α} (known : grammar.rule? number = some rule)
    (stand : StandForAll grammar terminalOf (front ++ (rule.right ++ back)) trees) :
    ∃ fronts children backs, trees = fronts ++ (children ++ backs) ∧
      StandForAll grammar terminalOf back backs ∧
        StandForAll grammar terminalOf (front ++ .nonterminal rule.left :: back)
          (fronts ++ .node number children :: backs) := by
  obtain ⟨fronts, others, rfl, inFront, stand⟩ := stand.split
  obtain ⟨children, backs, rfl, inside, inBack⟩ := stand.split
  exact ⟨fronts, children, backs, rfl, inBack, inFront.append (.cons (.node known inside) inBack)⟩

/-- The trees of terminals are leaves. -/
theorem allReductions_of_terminals {word : List Terminal}
    (stand : StandForAll grammar terminalOf (word.map .terminal) trees) :
    allReductions trees = [] := by
  induction word generalizing trees with
  | nil => cases stand; rfl
  | cons terminal word ih =>
      cases stand with
      | cons first others =>
          cases first
          rw [allReductions, ih others]
          rfl

theorem leaves (tokens : List θ) :
    StandForAll grammar terminalOf (tokens.map fun token => .terminal (terminalOf token))
      (tokens.map .leaf) := by
  induction tokens with
  | nil => exact .nil
  | cons token tokens ih => exact .cons (.leaf token) ih

end StandForAll

theorem frontiers_leaves (tokens : List θ) : frontiers (tokens.map .leaf) = tokens := by
  induction tokens with
  | nil => rfl
  | cons token tokens ih =>
      rw [List.map_cons, frontiers, ih]
      rfl

theorem frontiers_fold (fronts children backs : List (ParseTree θ)) (number : RuleId) :
    frontiers (fronts ++ .node number children :: backs) =
      frontiers (fronts ++ (children ++ backs)) := by
  rw [frontiers_append, frontiers_append, frontiers_append, frontiers, frontier]

end ParseTree

/-! ### Trees of derivations -/

namespace Grammar

open ParseTree

variable {tokens : List θ} {symbols : List Symbol}

theorem Derives.exists_trees
    (steps : grammar.Derives symbols (tokens.map fun token => .terminal (terminalOf token))) :
    ∃ trees, StandForAll grammar terminalOf symbols trees ∧ frontiers trees = tokens := by
  generalize word : (tokens.map fun token => Symbol.terminal (terminalOf token)) = last at steps
  induction steps with
  | refl =>
      subst word
      exact ⟨_, .leaves tokens, frontiers_leaves tokens⟩
  | head step _ ih =>
      obtain ⟨trees, stand, leaves⟩ := ih word
      cases step with
      | @replace front back number rule known =>
          obtain ⟨fronts, children, backs, rfl, _, folded⟩ := stand.fold known
          refine ⟨_, folded, ?_⟩
          rw [frontiers_fold]
          exact leaves

theorem RightmostDerives.exists_trees {numbers : List RuleId}
    (steps : grammar.RightmostDerives numbers symbols
      (tokens.map fun token => .terminal (terminalOf token))) :
    ∃ trees, StandForAll grammar terminalOf symbols trees ∧ frontiers trees = tokens ∧
      allReductions trees = numbers.reverse := by
  generalize word : (tokens.map fun token => Symbol.terminal (terminalOf token)) = last at steps
  induction steps with
  | refl =>
      subst word
      have stand : StandForAll grammar terminalOf ((tokens.map terminalOf).map .terminal)
          (tokens.map .leaf) := by
        rw [List.map_map]
        exact .leaves tokens
      exact ⟨_, .leaves tokens, frontiers_leaves tokens, stand.allReductions_of_terminals⟩
  | @head front back number rule numbers last known _ ih =>
      obtain ⟨trees, stand, leaves, rules⟩ := ih word
      obtain ⟨fronts, children, backs, rfl, inBack, folded⟩ := stand.fold known
      refine ⟨_, folded, ?_, ?_⟩
      · rw [frontiers_fold]
        exact leaves
      · -- only leaves stand behind the node, so its rule is the last one
        have noRules := inBack.allReductions_of_terminals
        rw [allReductions_append, allReductions_append, noRules, List.append_nil] at rules
        rw [allReductions_append, allReductions, reductions, noRules, List.append_nil,
          ← List.append_assoc, rules, List.reverse_cons]

theorem Vanishes.exists_trees (vanishes : grammar.Vanishes symbols) :
    ∃ trees : List (ParseTree θ), StandForAll grammar terminalOf symbols trees ∧
      frontiers trees = [] :=
  @Derives.exists_trees α θ grammar terminalOf [] symbols vanishes.derives

end Grammar

/-! ### Derivations of trees -/

namespace ParseTree

mutual

theorem StandsFor.rightmostDerives {symbol : Symbol} {tree : ParseTree θ}
    (stands : StandsFor grammar terminalOf symbol tree) :
    grammar.RightmostDerives tree.reductions.reverse [symbol]
      (tree.frontier.map fun token => .terminal (terminalOf token)) := by
  cases stands with
  | leaf token => exact .refl _
  | @node number rule children known inside =>
      have steps := inside.rightmostDerives
      rw [reductions, List.reverse_append, frontier]
      refine .head [] [] known ?_
      rw [List.nil_append, List.map_nil, List.append_nil]
      exact steps

theorem StandForAll.rightmostDerives {symbols : List Symbol} {trees : List (ParseTree θ)}
    (stand : StandForAll grammar terminalOf symbols trees) :
    grammar.RightmostDerives (allReductions trees).reverse symbols
      ((frontiers trees).map fun token => .terminal (terminalOf token)) := by
  cases stand with
  | nil => exact .refl _
  | @cons symbol symbols tree trees first others =>
      have back := others.rightmostDerives.surround [symbol] []
      have front := first.rightmostDerives.surround [] ((frontiers trees).map terminalOf)
      rw [allReductions, List.reverse_append, frontiers, List.map_append]
      simp only [List.map_nil, List.append_nil, List.nil_append, List.map_map,
        Function.comp_def] at back front
      exact back.trans front

end

end ParseTree

end CoolLang
