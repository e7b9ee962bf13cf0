import CoolLang.Proofs.ShiftReduce.Moves
import CoolLang.Proofs.ShiftReduce.ParseTree

/-!
Accepted tokens are sentences. At every point of a run of a generated table, whether it has conflicts
or not, the states lie on a path, and trees stand for the symbols of that path: their leaves are the
tokens read, and their nodes the reductions made (`ParseTable.Forest`). A run accepts when one tree is
left, for the start symbol.
-/

namespace CoolLang

variable {α θ ε : Type} {grammar : Grammar α} {terminalOf : θ → Terminal} {tokens : List θ}
  {configuration : Configuration StateId θ RuleId} {read : List Symbol}
  {trees : List (ParseTree θ)}

open ParseTree

/-! ### Replaying trees -/

namespace Machine

variable {σ τ ν : Type} {machine : Machine σ τ ν RuleId} {operations : List Operation}
  {rules : List RuleId} {values : List (ParseTree θ)}

theorem replayFrom_shift {token : θ} {rest : List θ} :
    machine.replayFrom (builder : Reducer θ RuleId _ ε) (.shift :: operations) (token :: rest) rules
        values =
      machine.replayFrom builder operations rest rules (.leaf token :: values) := rfl

theorem replayFrom_reduce {number : RuleId} {left : ν} {fronts children : List (ParseTree θ)}
    (production : machine.production number = (left, children.length)) :
    machine.replayFrom (builder : Reducer θ RuleId _ ε) (.reduce :: operations) tokens
        (number :: rules) (fronts ++ children).reverse =
      machine.replayFrom builder operations tokens rules
        (fronts ++ [ParseTree.node number children]).reverse := by
  have arguments : (fronts ++ children).reverse.take children.length = children.reverse := by
    rw [List.reverse_append]
    exact List.take_left' List.length_reverse
  have others : (fronts ++ children).reverse.drop children.length = fronts.reverse := by
    rw [List.reverse_append]
    exact List.drop_left' List.length_reverse
  rw [replayFrom]
  simp only [production, arguments, others, List.length_reverse, Nat.lt_irrefl, if_false,
    List.reverse_reverse, builder]
  rw [List.reverse_append]
  rfl

end Machine

namespace ParseTable

/-! ### The forest of a run -/

/-- What a run of the generated table has built: trees for the symbols on its stack. -/
structure Forest (grammar : Grammar α) (terminalOf : θ → Terminal) (tokens : List θ)
    (configuration : Configuration StateId θ RuleId) (read : List Symbol)
    (trees : List (ParseTree θ)) : Prop where
  path : grammar.automaton.Path read configuration.state configuration.below
  stand : StandForAll grammar terminalOf read trees
  tokens_eq : frontiers trees ++ configuration.rest = tokens
  sentence : ∀ token ∈ frontiers trees, terminalOf token ≠ Terminal.eoi
  shifts : (frontiers trees).length = configuration.operations.count .shift
  reductions_eq : allReductions trees = configuration.reductions.reverse
  replays : ∀ (ε : Type) (operations : List Operation) (rules : List RuleId),
    (generate grammar).machine.replayFrom (builder : Reducer θ RuleId _ ε)
        (configuration.operations.reverse ++ operations) tokens
        (configuration.reductions.reverse ++ rules) [] =
      (generate grammar).machine.replayFrom builder operations configuration.rest rules trees.reverse

theorem Forest.start (grammar : Grammar α) (terminalOf : θ → Terminal) (tokens : List θ) :
    Forest grammar terminalOf tokens ((generate grammar).machine.start tokens) [] [] where
  path := .start
  stand := .nil
  tokens_eq := rfl
  sentence := by
    intro token impossible
    cases impossible
  shifts := rfl
  reductions_eq := rfl
  replays _ _ _ := rfl

theorem Forest.shift (wellFormed : grammar.WellFormed)
    (forest : Forest grammar terminalOf tokens configuration read trees) {token : θ} {rest : List θ}
    {next : StateId} (lookahead : configuration.rest = token :: rest)
    (inEffect : (generate grammar).action? configuration.state (terminalOf token) =
      some (.shift next)) :
    Forest grammar terminalOf tokens (configuration.shift rest next)
      (read ++ [.terminal (terminalOf token)]) (trees ++ [.leaf token]) := by
  have leaves : frontiers (trees ++ [.leaf token]) = frontiers trees ++ [token] := by
    rw [frontiers_append, frontiers_singleton, ParseTree.frontier]
  obtain ⟨item, context, valid, isNext, leads⟩ :=
    (warrants_of_action? wellFormed forest.path inEffect).of_shift
  constructor
  · exact forest.path.step leads
  · exact forest.stand.append (.cons (.leaf token) .nil)
  · rw [leaves, List.append_assoc, ← forest.tokens_eq, lookahead]
    rfl
  · intro other member
    rw [leaves] at member
    rcases List.mem_append.mp member with before | isLast
    · exact forest.sentence other before
    · rw [List.mem_singleton.mp isLast]
      exact (wellFormed.usable_of_mem_right_number (List.mem_of_getElem? isNext)).1
  · rw [leaves, List.length_append, forest.shifts]
    exact List.count_cons_self.symm
  · rw [allReductions_append, allReductions_singleton, reductions, List.append_nil]
    exact forest.reductions_eq
  · intro ε operations rules
    have replays := forest.replays ε (.shift :: operations) rules
    rw [lookahead, Machine.replayFrom_shift] at replays
    rw [List.reverse_append]
    change Machine.replayFrom _ _ ((.shift :: configuration.operations).reverse ++ _) _ _ _ = _
    rw [List.reverse_cons, List.append_assoc]
    exact replays

theorem Forest.reduce (wellFormed : grammar.WellFormed)
    (forest : Forest grammar terminalOf tokens configuration read trees) {terminal : Terminal}
    {number : RuleId} {left : Nonterminal} {count : Nat} {top next : StateId} {below : List StateId}
    (inEffect : (generate grammar).action? configuration.state terminal = some (.reduce number))
    (production : (generate grammar).machine.production number = (left, count))
    (uncovered : (configuration.state :: configuration.below).drop count = top :: below)
    (goto : (generate grammar).goto? top left = some next) :
    ∃ read trees, Forest grammar terminalOf tokens (configuration.reduce number top below next) read
      trees := by
  obtain ⟨rule, context, known, declared, valid, _⟩ :=
    (warrants_of_action? wellFormed forest.path inEffect).of_reduce
  obtain ⟨before, top', below', next', rfl, _, uncovered', path, leads⟩ :=
    valid.uncovers wellFormed forest.path known declared
  have production' := production
  rw [production_generate known] at production'
  cases production'
  rw [uncovered] at uncovered'
  cases uncovered'
  rw [← goto?_generate wellFormed, goto] at leads
  cases leads
  obtain ⟨fronts, children, rfl, inFront, inside⟩ := forest.stand.split
  rw [← inside.length_eq] at production
  have leaves : frontiers (fronts ++ [.node number children]) =
      frontiers (fronts ++ children) := by
    have folded := frontiers_fold fronts children [] number
    rwa [List.append_nil] at folded
  refine ⟨before ++ [.nonterminal rule.left], fronts ++ [.node number children], ?_⟩
  constructor
  · exact path.step ((goto?_generate wellFormed).mp goto)
  · exact inFront.append (.cons (.node known inside) .nil)
  · rw [leaves]
    exact forest.tokens_eq
  · rw [leaves]
    exact forest.sentence
  · rw [leaves, forest.shifts]
    exact (List.count_cons_of_ne (by decide)).symm
  · rw [allReductions_append, allReductions_singleton, reductions, ← List.append_assoc,
      ← allReductions_append, forest.reductions_eq]
    exact List.reverse_cons.symm
  · intro ε operations rules
    have replays := forest.replays ε (.reduce :: operations) (number :: rules)
    rw [Machine.replayFrom_reduce production] at replays
    change Machine.replayFrom _ _ ((.reduce :: configuration.operations).reverse ++ _) _
      ((number :: configuration.reductions).reverse ++ _) _ = _
    rw [List.reverse_cons, List.reverse_cons, List.append_assoc, List.append_assoc]
    exact replays

theorem Forest.step (wellFormed : grammar.WellFormed)
    (forest : Forest grammar terminalOf tokens configuration read trees)
    {next : Configuration StateId θ RuleId}
    (step : (generate grammar).machine.step terminalOf configuration = .next next) :
    ∃ read trees, Forest grammar terminalOf tokens next read trees := by
  have stepped := Machine.step_stepped (generate grammar).machine terminalOf configuration
  rw [step] at stepped
  cases stepped with
  | shift lookahead inEffect => exact ⟨_, _, forest.shift wellFormed lookahead inEffect⟩
  | reduce lookahead inEffect production uncovered goto =>
      exact forest.reduce wellFormed inEffect production uncovered goto

theorem Forest.reaches (wellFormed : grammar.WellFormed)
    (forest : Forest grammar terminalOf tokens configuration read trees) {steps : Nat}
    {last : Configuration StateId θ RuleId}
    (reaches : (generate grammar).machine.Reaches terminalOf steps configuration last) :
    ∃ read trees, Forest grammar terminalOf tokens last read trees := by
  induction reaches generalizing read trees with
  | refl => exact ⟨read, trees, forest⟩
  | head step _ ih =>
      obtain ⟨read, trees, forest⟩ := forest.step wellFormed step
      exact ih forest

/-- The states of every configuration that a run reaches lie on a path. -/
theorem exists_forest (wellFormed : grammar.WellFormed) {steps : Nat}
    {last : Configuration StateId θ RuleId}
    (reaches : (generate grammar).machine.Reaches terminalOf steps
      ((generate grammar).machine.start tokens) last) :
    ∃ read trees, Forest grammar terminalOf tokens last read trees :=
  (Forest.start grammar terminalOf tokens).reaches wellFormed reaches

/-- When a run accepts, one tree is left. -/
theorem Forest.accepted (wellFormed : grammar.WellFormed)
    (forest : Forest grammar terminalOf tokens configuration read trees) {terminal : Terminal}
    (inEffect : (generate grammar).action? configuration.state terminal = some .accept) :
    terminal = Terminal.eoi ∧ ∃ tree, trees = [tree] ∧
      StandsFor grammar terminalOf (.nonterminal grammar.start) tree := by
  obtain ⟨atEnd, context, valid⟩ := (warrants_of_action? wellFormed forest.path inEffect).of_accept
  obtain ⟨rfl, rfl⟩ := valid.of_augmented wellFormed
  exact ⟨atEnd, forest.stand.singleton⟩

/-- What a generated table accepts is a sentence before an end of input. Its rules are a rightmost
derivation, latest first, and replaying them builds its parse tree. -/
theorem parse_sound {declarations : List (Declaration α)}
    (accepted : Grammar.ofDeclarations declarations = .ok grammar)
    {derivation : Derivation RuleId}
    (parsed : (generate grammar).parse terminalOf tokens = some (.ok derivation)) :
    ∃ word last rest, tokens = word ++ last :: rest ∧ terminalOf last = Terminal.eoi ∧
      (∀ token ∈ word, terminalOf token ≠ Terminal.eoi) ∧
      word.length = derivation.operations.count .shift ∧
      grammar.RightmostDerives derivation.reductions.reverse [.nonterminal grammar.start]
        (word.map fun token => .terminal (terminalOf token)) ∧
      ∃ tree : ParseTree θ,
        (∀ ε : Type, (generate grammar).machine.replay (builder : Reducer θ RuleId _ ε) derivation
          tokens = .ok tree) ∧
        StandsFor grammar terminalOf (.nonterminal grammar.start) tree ∧
        tree.frontier = word ∧ tree.reductions = derivation.reductions := by
  have wellFormed := Grammar.wellFormed_of_declarations accepted
  obtain ⟨steps, _, last, reaches, stops⟩ := Machine.runFrom_eq_some_iff.mp parsed
  obtain ⟨read, trees, forest⟩ := exists_forest wellFormed reaches
  have stepped := Machine.step_stepped (generate grammar).machine terminalOf last
  generalize (generate grammar).machine.step terminalOf last = result at stepped stops
  cases stepped with
  | @accept token rest lookahead inEffect =>
      cases stops
      obtain ⟨atEnd, tree, rfl, stands⟩ := forest.accepted wellFormed inEffect
      have rules := forest.reductions_eq
      have whole := forest.tokens_eq
      have shifts := forest.shifts
      have sentence := forest.sentence
      rw [frontiers_singleton] at whole shifts sentence
      rw [allReductions_singleton] at rules
      refine ⟨tree.frontier, token, rest, ?_, atEnd, sentence, ?_, ?_, tree, ?_, stands, rfl, rules⟩
      · rw [← whole, lookahead]
      · rw [shifts]
        exact List.count_reverse.symm
      · have derived := stands.rightmostDerives
        rw [rules] at derived
        exact derived
      · intro ε
        have replays := forest.replays ε [] []
        rw [List.append_nil, List.append_nil] at replays
        exact replays
  | _ => cases stops

theorem parse_sound_nested :
    (generate Grammar.nested).parse id [1, 2, 0, 1] =
        some (.ok ⟨[2, 1], [.shift, .reduce, .shift, .reduce]⟩) ∧
      ∃ tree : ParseTree Terminal, StandsFor Grammar.nested id (.nonterminal 1) tree ∧
        tree.reductions = [2, 1] := by
  have parsed : (generate Grammar.nested).parse id [1, 2, 0, 1] =
      some (.ok ⟨[2, 1], [.shift, .reduce, .shift, .reduce]⟩) := by
    decide +kernel
  obtain ⟨_, _, _, _, _, _, _, _, tree, _, stands, _, rules⟩ :=
    parse_sound Grammar.nested_accepted parsed
  exact ⟨parsed, tree, stands, rules⟩

end ParseTable

end CoolLang
