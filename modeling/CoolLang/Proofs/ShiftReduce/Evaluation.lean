import CoolLang.Proofs.ShiftReduce.Completeness
import CoolLang.Proofs.ShiftReduce.Soundness
import CoolLang.Proofs.ShiftReduce.StatefulReplay

/-!
What a reducer makes of a tree. `ParseTree.Yields` evaluates a tree from the leaves up and says which
calls that takes. A replay that builds the tree makes these calls, in the same order, for any other
reducer (`Machine.replay_of_tree`). A tree is determined by its symbol, its leaves and its rules, so
before an end of input the leaves of a tree for the start symbol are parsed to that very tree
(`ParseTable.parse_of_tree`).
-/

namespace CoolLang

variable {α θ υ ε : Type} {reducer : Reducer θ RuleId υ ε}

open ParseTree

namespace ParseTree

mutual

/-- `Yields reducer tree calls value`: with these calls the reducer makes the value of the tree. -/
inductive Yields (reducer : Reducer θ RuleId υ ε) :
    ParseTree θ → List (ReducerCall θ RuleId υ) → υ → Prop where
  | leaf {token : θ} {value : υ} (shifted : reducer.shift token = .ok value) :
      Yields reducer (.leaf token) [.shift token] value
  | node {number : RuleId} {children : List (ParseTree θ)}
      {calls : List (ReducerCall θ RuleId υ)} {arguments : List υ} {value : υ}
      (inside : YieldAll reducer children calls arguments)
      (reduced : reducer.reduce number arguments = .ok value) :
      Yields reducer (.node number children) (calls ++ [.reduce number arguments]) value

inductive YieldAll (reducer : Reducer θ RuleId υ ε) :
    List (ParseTree θ) → List (ReducerCall θ RuleId υ) → List υ → Prop where
  | nil : YieldAll reducer [] [] []
  | cons {tree : ParseTree θ} {trees : List (ParseTree θ)}
      {calls more : List (ReducerCall θ RuleId υ)} {value : υ} {values : List υ}
      (first : Yields reducer tree calls value) (others : YieldAll reducer trees more values) :
      YieldAll reducer (tree :: trees) (calls ++ more) (value :: values)

end

namespace YieldAll

variable {trees fronts backs : List (ParseTree θ)} {calls more : List (ReducerCall θ RuleId υ)}
  {values others : List υ}

theorem length_eq (yield : YieldAll reducer trees calls values) : trees.length = values.length := by
  induction trees generalizing calls values with
  | nil => cases yield; rfl
  | cons tree trees ih =>
      cases yield with
      | cons first others => rw [List.length_cons, List.length_cons, ih others]

theorem append (yield : YieldAll reducer fronts calls values)
    (yield' : YieldAll reducer backs more others) :
    YieldAll reducer (fronts ++ backs) (calls ++ more) (values ++ others) := by
  induction fronts generalizing calls values with
  | nil => cases yield; exact yield'
  | cons tree fronts ih =>
      cases yield with
      | cons first inside =>
          rw [List.append_assoc]
          exact .cons first (ih inside)

theorem split (yield : YieldAll reducer (fronts ++ backs) calls values) :
    ∃ calls' more values' others, calls = calls' ++ more ∧ values = values' ++ others ∧
      YieldAll reducer fronts calls' values' ∧ YieldAll reducer backs more others := by
  induction fronts generalizing calls values with
  | nil => exact ⟨[], calls, [], values, rfl, rfl, .nil, yield⟩
  | cons tree fronts ih =>
      cases yield with
      | cons first inside =>
          obtain ⟨calls', more, values', others, rfl, rfl, front, back⟩ := ih inside
          exact ⟨_, more, _, others, (List.append_assoc ..).symm, rfl, .cons first front, back⟩

theorem singleton {tree : ParseTree θ} (yield : YieldAll reducer [tree] calls values) :
    ∃ value, values = [value] ∧ Yields reducer tree calls value := by
  cases yield with
  | cons first inside =>
      cases inside
      rw [List.append_nil]
      exact ⟨_, rfl, first⟩

end YieldAll

end ParseTree

/-! ### Replays -/

namespace Machine

variable {σ τ ν : Type} {machine : Machine σ τ ν RuleId} {tree : ParseTree θ}
  {calls : List (ReducerCall θ RuleId υ)} {value : υ}

private theorem exists_arguments {operations : List Operation} {tokens : List θ} {number : RuleId}
    {rules : List RuleId} {trees : List (ParseTree θ)}
    (replayed : machine.replayFrom (builder : Reducer θ RuleId _ ε) (.reduce :: operations) tokens
      (number :: rules) trees.reverse = .ok tree) :
    ∃ fronts children, trees = fronts ++ children ∧
      (machine.production number).2 = children.length := by
  unfold replayFrom at replayed
  dsimp only at replayed
  split at replayed
  · cases replayed
  · rename_i enough
    rw [List.length_take, List.length_reverse] at enough
    refine ⟨trees.take (trees.length - (machine.production number).2),
      trees.drop (trees.length - (machine.production number).2), (List.take_append_drop _ _).symm, ?_⟩
    rw [List.length_drop]
    omega

/-- Where a replay is going to build a tree, the trees at hand have values, and what it calls from there
on are the calls that are missing for the tree. -/
private theorem carryOut_of_tree {operations : List Operation} {tokens : List θ}
    {rules : List RuleId} {trees : List (ParseTree θ)} (yields : tree.Yields reducer calls value)
    (replayed : machine.replayFrom (builder : Reducer θ RuleId _ ε) operations tokens rules
      trees.reverse = .ok tree) :
    ∃ made later values, YieldAll reducer trees made values ∧ calls = made ++ later ∧
      ∀ log, ∃ rest rules', machine.carryOut reducer.stateless.logged operations
          ⟨tokens, rules, values.reverse⟩ ((), log) =
        (.ok ⟨rest, rules', [value]⟩, (), log ++ later) := by
  induction operations generalizing tokens rules trees with
  | nil =>
      unfold replayFrom at replayed
      split at replayed
      · rename_i root isRoot
        cases replayed
        rw [List.reverse_eq_cons_iff, List.reverse_nil, List.nil_append] at isRoot
        subst isRoot
        have yield := YieldAll.cons yields .nil
        refine ⟨_, [], [value], yield, by simp, ?_⟩
        intro log
        exact ⟨tokens, rules, by rw [List.append_nil]; rfl⟩
      · cases replayed
  | cons operation operations ih =>
      cases operation with
      | shift =>
          cases tokens with
          | nil => cases replayed
          | cons token tokens =>
              rw [replayFrom_shift] at replayed
              have built : (ParseTree.leaf token :: trees.reverse) =
                  (trees ++ [ParseTree.leaf token]).reverse := by simp
              rw [built] at replayed
              obtain ⟨made, later, values, yield, rfl, carried⟩ := ih replayed
              obtain ⟨made, last, values, lasts, rfl, rfl, front, back⟩ := yield.split
              obtain ⟨leafValue, rfl, leaf⟩ := back.singleton
              cases leaf with
              | leaf shifted =>
                  refine ⟨made, .shift token :: later, values, front, by simp, ?_⟩
                  intro log
                  obtain ⟨rest, rules', last⟩ := carried (log ++ [.shift token])
                  refine ⟨rest, rules', ?_⟩
                  rw [List.reverse_append, List.append_assoc] at last
                  simp only [carryOut, operate, StatefulReducer.logged, Reducer.stateless, shifted,
                    Workbench.put]
                  exact last
      | reduce =>
          cases rules with
          | nil => cases replayed
          | cons number rules =>
              obtain ⟨fronts, children, rfl, counted⟩ := exists_arguments replayed
              have production : machine.production number =
                  ((machine.production number).1, children.length) := Prod.ext rfl counted
              rw [replayFrom_reduce production] at replayed
              obtain ⟨made, later, values, yield, rfl, carried⟩ := ih replayed
              obtain ⟨made, last, values, lasts, rfl, rfl, front, back⟩ := yield.split
              obtain ⟨nodeValue, rfl, node⟩ := back.singleton
              cases node with
              | @node _ _ inner arguments _ inside reduced =>
                  refine ⟨made ++ inner, .reduce number arguments :: later, values ++ arguments,
                    front.append inside, by simp, ?_⟩
                  intro log
                  obtain ⟨rest, rules', last⟩ := carried (log ++ [.reduce number arguments])
                  refine ⟨rest, rules', ?_⟩
                  have same : (machine.production number).2 = arguments.reverse.length := by
                    rw [counted, inside.length_eq, List.length_reverse]
                  have enough : ¬(arguments.reverse ++ values.reverse).length <
                      arguments.reverse.length := by simp
                  rw [List.reverse_append, List.append_assoc] at last
                  rw [List.reverse_append]
                  simp only [carryOut, operate, same, if_neg enough, List.take_left, List.drop_left,
                    List.reverse_reverse, StatefulReducer.logged, Reducer.stateless, reduced,
                    Workbench.put]
                  exact last

/-- A replay that builds a tree evaluates it with any other reducer that yields a value for it. -/
theorem replay_of_tree {derivation : Derivation RuleId} {tokens : List θ}
    (replayed : machine.replay (builder : Reducer θ RuleId _ ε) derivation tokens = .ok tree)
    (yields : tree.Yields reducer calls value) :
    machine.replay reducer derivation tokens = .ok value ∧
      machine.replayCalls reducer.stateless derivation tokens () = calls := by
  have replayed' : machine.replayFrom (builder : Reducer θ RuleId _ ε) derivation.operations tokens
      derivation.reductions (List.reverse []) = .ok tree := replayed
  obtain ⟨made, later, values, yield, rfl, carried⟩ := carryOut_of_tree yields replayed'
  cases yield
  obtain ⟨rest, rules, last⟩ := carried []
  have logged : machine.replayWith reducer.stateless.logged derivation tokens ((), []) =
      (.ok value, (), later) := by
    rw [replayWith]
    simp only [List.reverse_nil, List.nil_append] at last
    rw [last]
    rfl
  constructor
  · rw [replay_eq_replayWith, ← replayWith_logged, logged]
  · rw [replayCalls, logged, List.nil_append]

end Machine

/-! ### Trees of a run -/

variable {grammar : Grammar α} {terminalOf : θ → Terminal}

namespace ParseTree

-- from right to left: the last rule, or else the last token, is that of the last tree
mutual

theorem StandsFor.unique {symbol : Symbol} {tree other : ParseTree θ} {rules rules' : List RuleId}
    {tokens tokens' : List θ} (stands : StandsFor grammar terminalOf symbol tree)
    (stands' : StandsFor grammar terminalOf symbol other)
    (sameRules : rules ++ tree.reductions = rules' ++ other.reductions)
    (sameLeaves : tokens ++ tree.frontier = tokens' ++ other.frontier) :
    tree = other ∧ rules = rules' ∧ tokens = tokens' := by
  generalize isSymbol : symbol = expected at stands'
  cases stands with
  | leaf token =>
      cases stands' with
      | leaf token' =>
          simp only [reductions, List.append_nil] at sameRules
          obtain ⟨sameTokens, sameToken⟩ := List.append_inj' sameLeaves rfl
          cases sameToken
          exact ⟨rfl, sameRules, sameTokens⟩
      | node => cases isSymbol
  | @node number rule children known inside =>
      cases stands' with
      | leaf => cases isSymbol
      | @node number' rule' children' known' inside' =>
          simp only [reductions, ← List.append_assoc] at sameRules
          obtain ⟨sameInside, sameNumber⟩ := List.append_inj' sameRules rfl
          cases sameNumber
          cases known.symm.trans known'
          obtain ⟨rfl, front⟩ := inside.unique inside' sameInside sameLeaves
          exact ⟨rfl, front⟩

theorem StandForAll.unique {symbols : List Symbol} {trees others : List (ParseTree θ)}
    {rules rules' : List RuleId} {tokens tokens' : List θ}
    (stand : StandForAll grammar terminalOf symbols trees)
    (stand' : StandForAll grammar terminalOf symbols others)
    (sameRules : rules ++ allReductions trees = rules' ++ allReductions others)
    (sameLeaves : tokens ++ frontiers trees = tokens' ++ frontiers others) :
    trees = others ∧ rules = rules' ∧ tokens = tokens' := by
  cases stand with
  | nil =>
      cases stand'
      exact ⟨rfl, List.append_cancel_right sameRules, List.append_cancel_right sameLeaves⟩
  | cons first inside =>
      cases stand' with
      | cons first' inside' =>
          simp only [allReductions, frontiers, ← List.append_assoc] at sameRules sameLeaves
          obtain ⟨rfl, sameRules, sameLeaves⟩ := inside.unique inside' sameRules sameLeaves
          obtain ⟨rfl, front⟩ := first.unique first' sameRules sameLeaves
          exact ⟨rfl, front⟩

end

theorem StandsFor.eq_of_reductions {symbol : Symbol} {tree other : ParseTree θ}
    (stands : StandsFor grammar terminalOf symbol tree)
    (stands' : StandsFor grammar terminalOf symbol other)
    (sameRules : tree.reductions = other.reductions) (sameLeaves : tree.frontier = other.frontier) :
    tree = other :=
  (stands.unique stands' (congrArg ([] ++ ·) sameRules) (congrArg ([] ++ ·) sameLeaves)).1

end ParseTree

namespace ParseTable

variable {tokens : List θ}

/-- What an accepting run has built. -/
theorem exists_tree_of_ends (wellFormed : grammar.WellFormed) {steps : Nat}
    {derivation : Derivation RuleId}
    (ends : (generate grammar).machine.Ends terminalOf steps
      ((generate grammar).machine.start tokens) (.ok derivation)) :
    ∃ tree last rest, StandsFor grammar terminalOf (.nonterminal grammar.start) tree ∧
      tokens = tree.frontier ++ last :: rest ∧ terminalOf last = Terminal.eoi ∧
      (∀ token ∈ tree.frontier, terminalOf token ≠ Terminal.eoi) ∧
      tree.reductions = derivation.reductions ∧
      ∀ ε : Type, (generate grammar).machine.replay (builder : Reducer θ RuleId _ ε) derivation tokens =
        .ok tree := by
  obtain ⟨final, reaches, stops⟩ := ends.accepted
  obtain ⟨read, trees, forest⟩ := exists_forest wellFormed reaches
  have stepped := Machine.step_stepped (generate grammar).machine terminalOf final
  rw [stops] at stepped
  cases stepped with
  | @accept last rest lookahead inEffect =>
      obtain ⟨atEnd, tree, rfl, stands⟩ := forest.accepted wellFormed inEffect
      have rules := forest.reductions_eq
      have whole := forest.tokens_eq
      have sentence := forest.sentence
      rw [frontiers_singleton] at whole sentence
      rw [allReductions_singleton] at rules
      refine ⟨tree, last, rest, stands, ?_, atEnd, sentence, rules, ?_⟩
      · rw [← whole, lookahead]
      · intro ε
        have replays := forest.replays ε [] []
        rw [List.append_nil, List.append_nil] at replays
        exact replays

private theorem takeWhile_sentence {word : List θ}
    (sentence : ∀ token ∈ word, terminalOf token ≠ Terminal.eoi) {last : θ}
    (atEnd : terminalOf last = Terminal.eoi) (rest : List θ) :
    (word ++ last :: rest).takeWhile (fun token => terminalOf token ≠ Terminal.eoi) = word := by
  rw [List.takeWhile_append_of_pos (by simpa using sentence),
    List.takeWhile_cons_of_neg (by simpa using atEnd), List.append_nil]

/-- Before an end of input the leaves of a tree are parsed to that tree. -/
theorem parse_of_tree (wellFormed : grammar.WellFormed) (free : (generate grammar).isLR1 = true)
    {tree : ParseTree θ} (stands : StandsFor grammar terminalOf (.nonterminal grammar.start) tree)
    (sentence : ∀ token ∈ tree.frontier, terminalOf token ≠ Terminal.eoi) {last : θ}
    (atEnd : terminalOf last = Terminal.eoi) (rest : List θ) :
    ∃ derivation,
      (generate grammar).parse terminalOf (tree.frontier ++ last :: rest) = some (.ok derivation) ∧
      ∀ ε : Type, (generate grammar).machine.replay (builder : Reducer θ RuleId _ ε) derivation
        (tree.frontier ++ last :: rest) = .ok tree := by
  obtain ⟨steps, derivation, ends, rules⟩ := ends_of_tree wellFormed free stands rest atEnd
  obtain ⟨other, last', rest', stands', whole, atEnd', sentence', rules', replayed⟩ :=
    exists_tree_of_ends wellFormed ends
  have sameLeaves : tree.frontier = other.frontier := by
    rw [← takeWhile_sentence sentence atEnd rest, whole, takeWhile_sentence sentence' atEnd' rest']
  cases stands.eq_of_reductions stands' (rules.symm.trans rules'.symm) sameLeaves
  exact ⟨derivation, parse_eq_some_iff.mpr ⟨steps, ends⟩, replayed⟩

end ParseTable

end CoolLang
