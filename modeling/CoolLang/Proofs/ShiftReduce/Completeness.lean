import CoolLang.Proofs.ShiftReduce.Guidance
import CoolLang.Proofs.ShiftReduce.StepBound

/-!
Tables without conflicts accept all sentences. Before an end of input the leaves of a tree for the start
symbol lead to acceptance, with the rules of that tree (`ParseTable.ends_of_tree`). Every rightmost
derivation of a sentence comes from a tree, so there is one only.
-/

namespace CoolLang

namespace ParseTable

variable {α θ : Type} {grammar : Grammar α} {terminalOf : θ → Terminal} {word : List θ}
  {last : θ}

open ParseTree

theorem ends_of_tree (wellFormed : grammar.WellFormed) (free : (generate grammar).isLR1 = true)
    {tree : ParseTree θ} (stands : StandsFor grammar terminalOf (.nonterminal grammar.start) tree)
    (rest : List θ) (atEnd : terminalOf last = Terminal.eoi) :
    ∃ steps derivation, (generate grammar).machine.Ends terminalOf steps
        ((generate grammar).machine.start (tree.frontier ++ last :: rest)) (.ok derivation) ∧
      derivation.reductions = tree.reductions := by
  have initial : grammar.Valid [] ⟨RuleId.augmented, 0⟩ [] :=
    Grammar.Reached.start.valid wellFormed.rule?_augmented
  have after : (grammar.right RuleId.augmented).drop 0 = [.nonterminal grammar.start] := by
    rw [Grammar.right_eq wellFormed.rule?_augmented]
    rfl
  have foresees : grammar.Foresees ([] ++ []) (terminalOf last) := Grammar.foresees_nil.mpr atEnd
  generalize begin : (generate grammar).machine.start (tree.frontier ++ last :: rest) = first
  have path : grammar.automaton.Path [] first.state first.below := by
    rw [← begin]
    exact .start
  have lookahead : first.rest = tree.frontier ++ last :: rest := by
    rw [← begin]
    rfl
  have unreduced : first.reductions = [] := by
    rw [← begin]
    rfl
  obtain ⟨final, builds⟩ := stands.guides wellFormed free path initial after lookahead foresees
  have lookahead' : final.rest = last :: rest := by
    have same := builds.rest_eq
    rw [lookahead, frontiers_singleton] at same
    exact (List.append_cancel_left same).symm
  have complete := Grammar.Reached.start.valid_within wellFormed.rule?_augmented
    (List.append_nil _).symm
  have inEffect := action?_of_warrants wellFormed free builds.path (.accept complete)
  rw [← atEnd] at inEffect
  obtain ⟨steps, reaches⟩ := builds.reaches
  refine ⟨_, final.derivation, reaches.ends (Machine.ends_of_accept lookahead' inEffect), ?_⟩
  rw [Configuration.derivation, builds.reductions_eq, unreduced, allReductions_singleton,
    List.append_nil, List.reverse_reverse]

theorem exists_tree_of_generates (generated : grammar.Generates (word.map terminalOf)) :
    ∃ tree, StandsFor grammar terminalOf (.nonterminal grammar.start) tree ∧ tree.frontier = word := by
  rw [Grammar.Generates, List.map_map] at generated
  obtain ⟨trees, stand, leaves⟩ := Grammar.Derives.exists_trees generated
  obtain ⟨tree, rfl, stands⟩ := stand.singleton
  rw [frontiers_singleton] at leaves
  exact ⟨tree, stands, leaves⟩

/-- A table without conflicts accepts every sentence before an end of input, by the rules of the one
rightmost derivation that the sentence has. -/
theorem parse_complete {declarations : List (Declaration α)}
    (accepted : Grammar.ofDeclarations declarations = .ok grammar)
    (free : (generate grammar).isLR1 = true)
    (generated : grammar.Generates (word.map terminalOf)) (atEnd : terminalOf last = Terminal.eoi)
    (rest : List θ) :
    ∃ derivation, (generate grammar).parse terminalOf (word ++ last :: rest) =
        some (.ok derivation) ∧
      ∀ numbers, grammar.RightmostDerives numbers [.nonterminal grammar.start]
          (word.map fun token => .terminal (terminalOf token)) ↔
        numbers = derivation.reductions.reverse := by
  have wellFormed := Grammar.wellFormed_of_declarations accepted
  obtain ⟨tree, stands, rfl⟩ := exists_tree_of_generates generated
  obtain ⟨steps, derivation, ends, rules⟩ := ends_of_tree wellFormed free stands rest atEnd
  refine ⟨derivation, parse_eq_some_iff.mpr ⟨steps, ends⟩, ?_⟩
  intro numbers
  constructor
  · intro derives
    obtain ⟨trees, stand, leaves, rules'⟩ := derives.exists_trees
    obtain ⟨other, rfl, stands'⟩ := stand.singleton
    rw [frontiers_singleton] at leaves
    rw [allReductions_singleton] at rules'
    -- the trees have the same leaves, so they guide the same run
    obtain ⟨steps', derivation', ends', sameRules⟩ := ends_of_tree wellFormed free stands' rest atEnd
    rw [leaves] at ends'
    cases (ends.unique ends').2
    rw [sameRules, rules', List.reverse_reverse]
  · rintro rfl
    rw [rules]
    exact stands.rightmostDerives

theorem parse_complete_nested :
    Grammar.nested.Generates [1, 2] ∧
      ∃ derivation, (generate Grammar.nested).parse id ([1, 2] ++ Terminal.eoi :: [1]) =
        some (.ok derivation) := by
  have generated : Grammar.nested.Generates ([1, 2].map id) :=
    .head (.replace [] [] (show Grammar.nested.rule? 1 = some _ from rfl))
      (.head (.replace [.terminal 1] [.terminal 2] (show Grammar.nested.rule? 2 = some _ from rfl))
        (.refl _))
  obtain ⟨derivation, parsed, _⟩ :=
    parse_complete Grammar.nested_accepted isLR1_nested generated (rfl : id Terminal.eoi = _) [1]
  exact ⟨generated, derivation, parsed⟩

end ParseTable

end CoolLang
