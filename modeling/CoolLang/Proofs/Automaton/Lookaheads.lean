import CoolLang.Proofs.Automaton.Collection
import CoolLang.Proofs.Automaton.ViablePrefix
import CoolLang.Proofs.Grammar.Follow

/-!
Lookaheads and FOLLOW. What is foreseen in some context of a nonterminal follows it by the rules
(`Grammar.Reached.follows`). The other way around takes that every nonterminal is reached, for a rule that is never
used makes terminals follow one another all the same (`Grammar.Follows.exists_reached`). The lookaheads of the
automaton are what the contexts foresee, so they are in FOLLOW, and all together they are FOLLOW
(`Grammar.lookaheads_union_follow`).
-/

namespace CoolLang

variable {α : Type} {grammar : Grammar α}

namespace Grammar

variable {read context : List Symbol} {nonterminal left : Nonterminal} {terminal : Terminal}

/-! ### Contexts and rules -/

theorem Reached.follows (reached : grammar.Reached left read context)
    (foresees : grammar.Foresees context terminal) : grammar.Follows terminal left := by
  induction reached with
  | start => exact .start (foresees_nil.mp foresees)
  | @step number rule read context _ known before after nonterminal right ih =>
      have occurs : grammar.Occurs nonterminal rule.left after := ⟨number, rule, before, known, rfl, right⟩
      rcases foresees_append.mp foresees with begins | ⟨vanishes, beyond⟩
      · exact .begins occurs begins
      · exact .inherits occurs vanishes (ih beyond)

/-- Whether the start symbol derives a string with the nonterminal in it. -/
def Reachable (grammar : Grammar α) (nonterminal : Nonterminal) : Prop :=
  ∃ front back, grammar.Derives [.nonterminal grammar.start] (front ++ .nonterminal nonterminal :: back)

/-- Whether every nonterminal in a string is reached. -/
def AllReached (grammar : Grammar α) (string : List Symbol) : Prop :=
  ∀ nonterminal, .nonterminal nonterminal ∈ string → ∃ read context, grammar.Reached nonterminal read context

theorem AllReached.start (wellFormed : grammar.WellFormed) : grammar.AllReached [.nonterminal grammar.start] := by
  intro nonterminal member
  obtain rfl := Symbol.nonterminal.inj (List.mem_singleton.mp member)
  have right : [Symbol.nonterminal grammar.start] = [] ++ .nonterminal grammar.start :: [] := rfl
  exact ⟨_, _, Reached.start.step wellFormed.rule?_augmented right⟩

theorem Rewrites.allReached {first last : List Symbol} (step : grammar.Rewrites first last)
    (allReached : grammar.AllReached first) : grammar.AllReached last := by
  cases step with
  | @replace front back number rule known =>
      intro nonterminal member
      rcases List.mem_append.mp member with inFront | member
      · exact allReached nonterminal (List.mem_append_left _ inFront)
      · rcases List.mem_append.mp member with inRight | inBack
        · obtain ⟨read, context, reached⟩ :=
            allReached rule.left (List.mem_append_right _ List.mem_cons_self)
          obtain ⟨before, after, right⟩ := List.append_of_mem inRight
          exact ⟨_, _, reached.step known right⟩
        · exact allReached nonterminal (List.mem_append_right _ (List.mem_cons_of_mem _ inBack))

theorem Derives.allReached {first last : List Symbol} (steps : grammar.Derives first last)
    (allReached : grammar.AllReached first) : grammar.AllReached last := by
  induction steps with
  | refl => exact allReached
  | head step _ ih => exact ih (step.allReached allReached)

theorem Reachable.exists_reached (wellFormed : grammar.WellFormed) (reachable : grammar.Reachable nonterminal) :
    ∃ read context, grammar.Reached nonterminal read context := by
  obtain ⟨front, back, steps⟩ := reachable
  apply steps.allReached (.start wellFormed)
  exact List.mem_append_right _ List.mem_cons_self

/-- Where all nonterminals are reached, one is reached in a context for each terminal that follows it. -/
theorem Follows.exists_reached (wellFormed : grammar.WellFormed)
    (reachable : ∀ nonterminal, grammar.Usable (.nonterminal nonterminal) → grammar.Reachable nonterminal)
    (follows : grammar.Follows terminal nonterminal) :
    ∃ read context, grammar.Reached nonterminal read context ∧ grammar.Foresees context terminal := by
  induction follows with
  | start eoi => exact ⟨[], [], .start, foresees_nil.mpr eoi⟩
  | begins occurs begins =>
      obtain ⟨number, rule, before, known, rfl, right⟩ := occurs
      have isReached : ∃ read context, grammar.Reached rule.left read context := by
        by_cases isFirst : rule.left = Nonterminal.augmented
        · exact ⟨[], [], isFirst ▸ .start⟩
        · exact (reachable rule.left ⟨isFirst, wellFormed.left_lt known⟩).exists_reached wellFormed
      obtain ⟨read, context, reached⟩ := isReached
      exact ⟨_, _, reached.step known right, foresees_append.mpr (Or.inl begins)⟩
  | inherits occurs vanishes _ ih =>
      obtain ⟨number, rule, before, known, rfl, right⟩ := occurs
      obtain ⟨read, context, reached, foresees⟩ := ih
      exact ⟨_, _, reached.step known right, foresees_append.mpr (Or.inr ⟨vanishes, foresees⟩)⟩

/-! ### The automaton -/

/-- Each lookahead of an item is foreseen in a context in which the nonterminal of its rule is reached. -/
theorem exists_reached_of_mem (wellFormed : grammar.WellFormed) {number : StateId} {state : State}
    (isState : grammar.automaton.states[number]? = some state) {item : Item} {lookaheads : TerminalSet}
    (member : (item, lookaheads) ∈ state.items) :
    ∃ rule, grammar.rule? item.rule = some rule ∧ ∀ terminal ∈ lookaheads, ∃ read context,
      grammar.Reached rule.left read context ∧ grammar.Foresees context terminal := by
  have isCollection : grammar.automaton.IsCollection grammar (FirstSets.compute grammar) :=
    Automaton.generate_isCollection wellFormed (.compute grammar)
  obtain ⟨_, read, below, path, _⟩ := isCollection.reachable number (Array.getElem?_eq_some_iff.mp isState).1
  obtain ⟨⟨context, rule, before, known, _⟩, valid⟩ :=
    wellFormed.canonical.valid_of_mem wellFormed path isState _ member
  refine ⟨rule, known, fun terminal isLookahead => ?_⟩
  obtain ⟨context, ⟨rule', before, known', _, _, reached⟩, foresees⟩ := valid terminal isLookahead
  rw [known] at known'
  cases known'
  exact ⟨before, context, reached, foresees⟩

/-- What is foreseen in a context of a nonterminal is a lookahead of the items of its rules in some state. -/
theorem Reached.exists_mem (wellFormed : grammar.WellFormed) {number : RuleId} {rule : Rule α}
    (known : grammar.rule? number = some rule) (reached : grammar.Reached rule.left read context)
    (foresees : grammar.Foresees context terminal) :
    ∃ state ∈ grammar.automaton.states, ∃ lookaheads,
      (⟨number, 0⟩, lookaheads) ∈ state.items ∧ terminal ∈ lookaheads := by
  have canonical := wellFormed.canonical
  have valid := reached.valid known
  obtain ⟨place, below, path⟩ := canonical.exists_path_of_valid wellFormed valid
  obtain ⟨state, isState⟩ := canonical.exists_state path
  obtain ⟨lookaheads, member, all⟩ := canonical.mem_of_valid wellFormed valid path isState
  exact ⟨state, Array.mem_of_getElem? isState, lookaheads, member, all terminal foresees⟩

/-- Lookaheads and FOLLOW agree. Each lookahead of an item in a state of the automaton is in the computed FOLLOW set of
the nonterminal of the item's rule. Where the start symbol reaches every nonterminal, the FOLLOW set of each one that
has a rule is the union of the lookahead sets that the items of its rules have in all states. -/
theorem lookaheads_union_follow {declarations : List (Declaration α)}
    (accepted : Grammar.ofDeclarations declarations = .ok grammar) :
    let follow := FollowSets.compute grammar (FirstSets.compute grammar)
    (∀ state ∈ grammar.automaton.states, ∀ item lookaheads, (item, lookaheads) ∈ state.items →
      ∃ rule set, grammar.rule? item.rule = some rule ∧ follow.get? rule.left = some set ∧
        ∀ terminal ∈ lookaheads, terminal ∈ set) ∧
    ((∀ nonterminal, grammar.Usable (.nonterminal nonterminal) → grammar.Reachable nonterminal) →
      ∀ number rule, grammar.rule? number = some rule → ∃ set, follow.get? rule.left = some set ∧
        ∀ terminal, terminal ∈ set ↔
          ∃ state ∈ grammar.automaton.states, ∃ item lookaheads other, (item, lookaheads) ∈ state.items ∧
            grammar.rule? item.rule = some other ∧ other.left = rule.left ∧ terminal ∈ lookaheads) := by
  intro follow
  have wellFormed := Grammar.wellFormed_of_declarations accepted
  have sized : follow.Sized grammar := .compute wellFormed (.compute grammar)
  have follows_of_mem {state : State} (isState : state ∈ grammar.automaton.states) {item : Item}
      {lookaheads : TerminalSet} (member : (item, lookaheads) ∈ state.items) :
      ∃ rule, grammar.rule? item.rule = some rule ∧
        ∀ terminal ∈ lookaheads, grammar.Follows terminal rule.left := by
    obtain ⟨number, known, rfl⟩ := Array.mem_iff_getElem.mp isState
    obtain ⟨rule, isRule, all⟩ :=
      exists_reached_of_mem wellFormed (Array.getElem?_eq_some_iff.mpr ⟨known, rfl⟩) member
    refine ⟨rule, isRule, fun terminal isLookahead => ?_⟩
    obtain ⟨read, context, reached, foresees⟩ := all terminal isLookahead
    exact reached.follows foresees
  constructor
  · intro state isState item lookaheads member
    obtain ⟨rule, known, all⟩ := follows_of_mem isState member
    obtain ⟨set, found⟩ := sized.exists_get? (wellFormed.left_lt known)
    refine ⟨rule, set, known, found, fun terminal isLookahead => ?_⟩
    exact (FollowSets.mem_compute_iff wellFormed found).mpr (all terminal isLookahead)
  · intro reachable number rule known
    obtain ⟨set, found⟩ := sized.exists_get? (wellFormed.left_lt known)
    refine ⟨set, found, fun terminal => ?_⟩
    rw [FollowSets.mem_compute_iff wellFormed found]
    constructor
    · intro follows
      obtain ⟨read, context, reached, foresees⟩ := follows.exists_reached wellFormed reachable
      obtain ⟨state, isState, lookaheads, member, isLookahead⟩ := reached.exists_mem wellFormed known foresees
      exact ⟨state, isState, _, lookaheads, rule, member, known, rfl, isLookahead⟩
    · rintro ⟨state, isState, item, lookaheads, other, member, isRule, same, isLookahead⟩
      obtain ⟨rule', isRule', all⟩ := follows_of_mem isState member
      rw [isRule] at isRule'
      cases isRule'
      exact same ▸ all terminal isLookahead

/-- What is nested in parentheses is followed by the closing one, and some item of its rules has that as a lookahead. -/
theorem lookaheads_union_follow_nested :
    Grammar.ofDeclarations Grammar.nestedDeclarations = .ok Grammar.nested ∧
      (∀ nonterminal, Grammar.nested.Usable (.nonterminal nonterminal) → Grammar.nested.Reachable nonterminal) ∧
      ∃ set, (FollowSets.compute Grammar.nested (FirstSets.compute Grammar.nested)).get? 1 = some set ∧
        ∃ state ∈ Grammar.nested.automaton.states, ∃ item lookaheads other, (item, lookaheads) ∈ state.items ∧
          Grammar.nested.rule? item.rule = some other ∧ other.left = 1 ∧ 2 ∈ lookaheads := by
  have reachable (nonterminal : Nonterminal) (usable : Grammar.nested.Usable (.nonterminal nonterminal)) :
      Grammar.nested.Reachable nonterminal := by
    have isStart : nonterminal = Grammar.nested.start :=
      Nat.le_antisymm (Nat.le_of_lt_succ usable.2) (Nat.pos_of_ne_zero usable.1)
    exact ⟨[], [], isStart ▸ .refl _⟩
  obtain ⟨_, unions⟩ := lookaheads_union_follow Grammar.nested_accepted
  obtain ⟨set, found, union⟩ := unions reachable 1 _ rfl
  refine ⟨Grammar.nested_accepted, reachable, set, found, (union 2).mp ?_⟩
  have computed : (FollowSets.compute Grammar.nested (FirstSets.compute Grammar.nested)).get? 1 =
      some (.ofList [0, 2]) := by
    decide +kernel
  cases found.symm.trans computed
  decide

end Grammar

end CoolLang
