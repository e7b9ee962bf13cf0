import Mathlib.Order.Lattice.Nat
import CoolLang.Proofs.Automaton.Searching
import CoolLang.Proofs.Automaton.ValidItem

/-!
The automaton is the canonical collection of item sets (`Grammar.automaton_canonical`): its states are the closures of
the kernels that the augmented item leads to, each kernel once, and they are numbered breadth first. For the numbers it
is enough that a state which is completed later never leads to a state with a smaller number that no earlier one has
led to (`Exploration.BreadthFirst`); so the first state that leads to a state comes the later, the larger its number.
-/

namespace CoolLang

variable {α : Type} {grammar : Grammar α} {firsts : FirstSets}

/-! ### Numbers -/

namespace Exploration

variable {exploration : Exploration} {items : ItemSet} {kernels : Array ItemSet}

/-- Whether a completed state has a transition to a state. -/
def Leads (exploration : Exploration) (source target : StateId) : Prop :=
  ∃ state symbol, exploration.completed[source]? = some state ∧ (symbol, target) ∈ state.transitions

/-- Every state but the first is led to by one before it. Where one leads to a state, none before that state has to wait
for a later one to lead to it. -/
structure BreadthFirst (exploration : Exploration) : Prop where
  found : ∀ target, 0 < target → target < exploration.kernels.size →
    ∃ source < target, exploration.Leads source target
  before : ∀ source target, exploration.Leads source target → ∀ earlier, 0 < earlier → earlier ≤ target →
    ∃ source' ≤ source, exploration.Leads source' earlier

/-- A number that is new after connecting is the target of a transition. -/
theorem exists_mem_connect (symbols : List Symbol) {target : StateId}
    (known : target < (connect grammar items symbols kernels).2.size) (isNew : kernels.size ≤ target) :
    ∃ symbol, (symbol, target) ∈ (connect grammar items symbols kernels).1 := by
  induction symbols generalizing kernels with
  | nil => exact absurd known (Nat.not_lt_of_le isNew)
  | cons symbol symbols ih =>
      rw [connect_cons] at known ⊢
      by_cases later : (numberOf kernels (items.advanceOver grammar symbol)).2.size ≤ target
      · obtain ⟨label, member⟩ := ih known later
        exact ⟨label, List.mem_cons_of_mem _ member⟩
      · have now := Nat.lt_of_not_le later
        have isNumber : target = (numberOf kernels (items.advanceOver grammar symbol)).1 := by
          unfold numberOf at now ⊢
          split at now
          · exact absurd now (Nat.not_lt_of_le isNew)
          · rw [Array.size_push] at now
            exact Nat.le_antisymm (Nat.le_of_lt_succ now) isNew
        exact ⟨symbol, isNumber ▸ List.mem_cons_self⟩

theorem BreadthFirst.start : BreadthFirst .initial where
  found target positive known := absurd known (Nat.not_lt_of_le positive)
  before source target leads := by
    obtain ⟨state, _, isState, _⟩ := leads
    cases isState

theorem leads_complete_iff {kernel : ItemSet} {source target : StateId} :
    (exploration.complete grammar firsts kernel).Leads source target ↔
      exploration.Leads source target ∨ source = exploration.completed.size ∧
        ∃ symbol, (symbol, target) ∈ (connect grammar (kernel.closure grammar firsts)
          ((kernel.closure grammar firsts).nextSymbols grammar) exploration.kernels).1 := by
  simp only [Leads, Exploration.complete, Array.getElem?_push]
  constructor
  · rintro ⟨state, symbol, isState, member⟩
    split at isState
    · rename_i isLast
      cases isState
      exact Or.inr ⟨isLast, symbol, member⟩
    · exact Or.inl ⟨state, symbol, isState, member⟩
  · rintro (⟨state, symbol, isState, member⟩ | ⟨rfl, symbol, member⟩)
    · have notLast : source ≠ exploration.completed.size :=
        Nat.ne_of_lt (Array.getElem?_eq_some_iff.mp isState).1
      exact ⟨state, symbol, (if_neg notLast).trans isState, member⟩
    · exact ⟨_, symbol, if_pos rfl, member⟩

theorem BreadthFirst.complete (breadthFirst : exploration.BreadthFirst) {kernel : ItemSet}
    (isNext : exploration.kernels[exploration.completed.size]? = some kernel) :
    (exploration.complete grammar firsts kernel).BreadthFirst := by
  have found : ∀ target, 0 < target → target < (exploration.complete grammar firsts kernel).kernels.size →
      ∃ source < target, (exploration.complete grammar firsts kernel).Leads source target := by
    intro target positive known
    by_cases old : target < exploration.kernels.size
    · obtain ⟨source, before, leads⟩ := breadthFirst.found target positive old
      exact ⟨source, before, leads_complete_iff.mpr (Or.inl leads)⟩
    · have isNew := Nat.le_of_not_lt old
      refine ⟨exploration.completed.size, Nat.lt_of_lt_of_le (Array.getElem?_eq_some_iff.mp isNext).1 isNew, ?_⟩
      exact leads_complete_iff.mpr (Or.inr ⟨rfl, exists_mem_connect _ known isNew⟩)
  refine ⟨found, fun source target leads earlier positive inOrder => ?_⟩
  rcases leads_complete_iff.mp leads with leads | ⟨rfl, symbol, member⟩
  · obtain ⟨source', before, leads'⟩ := breadthFirst.before source target leads earlier positive inOrder
    exact ⟨source', before, leads_complete_iff.mpr (Or.inl leads')⟩
  · -- all states up to the target are found once this one is completed, by it or by one before
    have known := (Array.getElem?_eq_some_iff.mp (getElem?_connect _ _ (symbol, target) member)).1
    obtain ⟨source', _, leads'⟩ := found earlier positive (Nat.lt_of_le_of_lt inOrder known)
    obtain ⟨state, _, isState, _⟩ := id leads'
    have completed := (Array.getElem?_eq_some_iff.mp isState).1
    rw [Exploration.complete, Array.size_push] at completed
    exact ⟨source', Nat.le_of_lt_succ completed, leads'⟩

theorem BreadthFirst.run (breadthFirst : exploration.BreadthFirst) (states : Nat) :
    (exploration.run grammar firsts states).BreadthFirst := by
  induction states generalizing exploration with
  | zero => exact breadthFirst
  | succ states ih =>
      unfold Exploration.run
      split
      · exact breadthFirst
      · rename_i isNext
        exact ih (breadthFirst.complete isNext)

end Exploration

/-! ### Distances -/

namespace Automaton

variable {automaton : Automaton}

/-- `Reaches length state`: a path of that length leads from state 0 to the state. -/
def Reaches (automaton : Automaton) (length : Nat) (state : StateId) : Prop :=
  ∃ read below, automaton.Path read state below ∧ read.length = length

/-- The length of the shortest path that leads to a state. -/
noncomputable def distance (automaton : Automaton) (state : StateId) : Nat :=
  sInf {length | automaton.Reaches length state}

theorem Reaches.step {length : Nat} {state next : StateId} {symbol : Symbol} (reaches : automaton.Reaches length state)
    (leads : automaton.transition? state symbol = some next) : automaton.Reaches (length + 1) next := by
  obtain ⟨read, below, path, rfl⟩ := reaches
  exact ⟨read ++ [symbol], state :: below, path.step leads, List.length_append⟩

/-- Where states are found breadth first, one before another is reached by a path no longer. -/
theorem Reaches.earlier
    (before : ∀ source target symbol, automaton.transition? source symbol = some target →
      ∀ earlier, 0 < earlier → earlier ≤ target →
        ∃ source' ≤ source, ∃ symbol', automaton.transition? source' symbol' = some earlier)
    {length : Nat} {later : StateId} (reaches : automaton.Reaches length later) {state : StateId}
    (inOrder : state ≤ later) : ∃ shorter ≤ length, automaton.Reaches shorter state := by
  obtain ⟨read, below, path, rfl⟩ := reaches
  induction path generalizing state with
  | start =>
      cases Nat.le_zero.mp inOrder
      exact ⟨0, Nat.le_refl 0, [], [], .start, rfl⟩
  | @step read source below symbol target path leads ih =>
      rcases Nat.eq_zero_or_pos state with rfl | positive
      · exact ⟨0, Nat.zero_le _, [], [], .start, rfl⟩
      · obtain ⟨source', earlier, symbol', leads'⟩ := before source target symbol leads state positive inOrder
        obtain ⟨shorter, bounded, reaches⟩ := ih earlier
        rw [List.length_append]
        exact ⟨shorter + 1, Nat.add_le_add_right bounded 1, reaches.step leads'⟩

theorem distance_le_of_earlier {state later : StateId}
    (earlier : ∀ length, automaton.Reaches length later → ∃ shorter ≤ length, automaton.Reaches shorter state)
    (reachable : ∃ length, automaton.Reaches length later) : automaton.distance state ≤ automaton.distance later := by
  obtain ⟨shorter, bounded, reaches⟩ := earlier _ (Nat.sInf_mem reachable)
  exact Nat.le_trans (Nat.sInf_le reaches) bounded

/-! ### The collection -/

/-- The canonical collection of item sets, numbered breadth first. -/
structure IsCollection (grammar : Grammar α) (firsts : FirstSets) (automaton : Automaton) : Prop where
  initial : ∃ state, automaton.states[0]? = some state ∧ state.kernel = [(⟨RuleId.augmented, 0⟩, .singleton Terminal.eoi)]
  closes : ∀ (number : StateId) (state : State), automaton.states[number]? = some state →
    ItemSet.Closes grammar firsts state.kernel state.items
  /-- What is in a kernel can be told from the items. -/
  mem_kernel : ∀ (number : StateId) (state : State), automaton.states[number]? = some state →
    ∀ entry, entry ∈ state.kernel ↔
      entry ∈ state.items ∧ (entry.1.marker ≠ 0 ∨ entry.1.rule = RuleId.augmented)
  connected : ∀ (number : StateId) (state : State), automaton.states[number]? = some state →
    ∀ symbol, (∃ next, automaton.transition? number symbol = some next) ↔
      ∃ entry ∈ state.items, entry.1.next? grammar = some symbol
  successor : ∀ (number : StateId) (state : State), automaton.states[number]? = some state →
    ∀ symbol next, automaton.transition? number symbol = some next →
      ∃ state', automaton.states[next]? = some state' ∧ ∀ item lookaheads, (item, lookaheads) ∈ state'.kernel ↔
        ∃ before, (before, lookaheads) ∈ state.items ∧ before.next? grammar = some symbol ∧ item = before.advance
  distinct : ∀ (number other : StateId) (state state' : State), automaton.states[number]? = some state →
    automaton.states[other]? = some state' → (∀ entry, entry ∈ state.kernel ↔ entry ∈ state'.kernel) → number = other
  reachable : ∀ number < automaton.states.size, ∃ length, automaton.Reaches length number
  distance_mono : ∀ number other, number < other → other < automaton.states.size →
    automaton.distance number ≤ automaton.distance other

end Automaton

theorem State.transition?_of_mem {state : State} (distinct : (state.transitions.map Prod.fst).Nodup) {symbol : Symbol}
    {next : StateId} (member : (symbol, next) ∈ state.transitions) : state.transition? symbol = some next := by
  obtain ⟨other, leads⟩ := exists_transition?_iff.mpr (List.mem_map_of_mem member : symbol ∈ _)
  have same := List.inj_on_of_nodup_map distinct member (transition?_eq_some leads) rfl
  rw [leads]
  exact congrArg some (Prod.mk.inj same).2.symm

namespace ItemSet

variable {kernel : ItemSet}

theorem Regular.mem_iff_mem_closure (regular : kernel.Regular grammar) (wellFormed : grammar.WellFormed)
    (entry : Item × TerminalSet) :
    entry ∈ kernel ↔ entry ∈ kernel.closure grammar firsts ∧
      (entry.1.marker ≠ 0 ∨ entry.1.rule = RuleId.augmented) := by
  constructor
  · intro member
    obtain ⟨rule, known, _⟩ := regular.known entry member
    exact ⟨mem_closure.mpr ⟨rule, known, Or.inr member⟩, Decidable.not_or_of_imp (regular.started entry member)⟩
  · rintro ⟨member, inKernel⟩
    obtain ⟨rule, known, ⟨atStart, expected⟩ | member⟩ := mem_closure.mp member
    · have isAugmented := inKernel.resolve_left (absurd atStart)
      rw [isAugmented, wellFormed.rule?_augmented] at known
      cases known
      exact absurd rfl (ne_augmented_of_expected wellFormed expected)
    · exact member

end ItemSet

namespace Automaton

theorem leads_iff_transition {exploration : Exploration} (regular : exploration.Regular grammar firsts)
    (source target : StateId) :
    exploration.Leads source target ↔
      ∃ symbol, transition? ⟨exploration.completed⟩ source symbol = some target := by
  constructor
  · rintro ⟨state, symbol, isState, member⟩
    have complete := regular.complete state (Array.mem_of_getElem? isState)
    have distinct : (state.transitions.map Prod.fst).Nodup :=
      complete.symbols_eq ▸ ItemSet.nodup_nextSymbols grammar state.items
    exact ⟨symbol, Option.bind_eq_some_iff.mpr ⟨state, isState, State.transition?_of_mem distinct member⟩⟩
  · rintro ⟨symbol, leads⟩
    obtain ⟨state, isState, leads⟩ := Option.bind_eq_some_iff.mp leads
    exact ⟨state, symbol, isState, State.transition?_eq_some leads⟩

/-- Where each state but the first follows one before it, all states can be reached. -/
theorem exists_reaches (automaton : Automaton)
    (found : ∀ number, 0 < number → number < automaton.states.size →
      ∃ source < number, ∃ symbol, automaton.transition? source symbol = some number) :
    ∀ number < automaton.states.size, ∃ length, automaton.Reaches length number := by
  intro number
  induction number using Nat.strongRecOn with
  | ind number ih =>
      intro known
      rcases Nat.eq_zero_or_pos number with rfl | positive
      · exact ⟨0, [], [], .start, rfl⟩
      · obtain ⟨source, before, symbol, leads⟩ := found number positive known
        obtain ⟨length, reaches⟩ := ih source before (Nat.lt_trans before known)
        exact ⟨length + 1, reaches.step leads⟩

theorem generate_isCollection (wellFormed : grammar.WellFormed) (sizedFirsts : firsts.Sized grammar) :
    (generate grammar firsts).IsCollection grammar firsts := by
  have canonical : (generate grammar firsts).Canonical grammar firsts := generate_canonical wellFormed sizedFirsts
  obtain ⟨regular, finished⟩ := (Exploration.Regular.start wellFormed).run wellFormed sizedFirsts (stateLimit grammar)
    (Nat.le_add_left _ _)
  have breadthFirst : (Exploration.initial.run grammar firsts (stateLimit grammar)).BreadthFirst :=
    Exploration.BreadthFirst.start.run _
  have leads_iff := leads_iff_transition regular
  have reachable := (generate grammar firsts).exists_reaches fun number positive known => by
    obtain ⟨source, before, leads⟩ := breadthFirst.found number positive (finished ▸ known)
    exact ⟨source, before, (leads_iff source number).mp leads⟩
  have earlier (source target : StateId) (symbol : Symbol)
      (leads : (generate grammar firsts).transition? source symbol = some target) (earlier : StateId)
      (positive : 0 < earlier) (inOrder : earlier ≤ target) : ∃ source' ≤ source, ∃ symbol',
        (generate grammar firsts).transition? source' symbol' = some earlier := by
    obtain ⟨source', before, leads⟩ :=
      breadthFirst.before source target ((leads_iff source target).mpr ⟨symbol, leads⟩) earlier positive inOrder
    exact ⟨source', before, (leads_iff source' earlier).mp leads⟩
  refine ⟨canonical.initial, ?_, ?_, ?_, ?_, ?_, reachable, ?_⟩
  · intro number state isState
    rw [canonical.items_eq number state isState]
    exact (canonical.regular number state isState).closes wellFormed sizedFirsts
  · intro number state isState entry
    rw [canonical.items_eq number state isState]
    exact (canonical.regular number state isState).mem_iff_mem_closure wellFormed entry
  · intro number state isState symbol
    rw [transition?, isState, ← ItemSet.mem_nextSymbols]
    exact canonical.connected number state isState symbol
  · intro number state isState symbol next leads
    rw [transition?, isState] at leads
    obtain ⟨state', isState', isKernel⟩ := canonical.successor number state isState symbol next leads
    refine ⟨state', isState', fun item lookaheads => ?_⟩
    rw [isKernel]
    exact ItemSet.mem_advanceOver
  · intro number other state state' isState isState' same
    have isKernel : state.kernel = state'.kernel := eq_of_pairwise_of_mem_iff Item.Before.asymm
      (canonical.regular number state isState).ordered (canonical.regular other state' isState').ordered same
    have atNumber := regular.kernel_eq number state isState
    have atOther := regular.kernel_eq other state' isState'
    rw [← isKernel] at atOther
    rw [← Array.getElem?_toList] at atNumber atOther
    exact (List.getElem?_inj (List.getElem?_eq_some_iff.mp atNumber).1 regular.distinct).mp
      (atNumber.trans atOther.symm)
  · intro number other inOrder known
    exact distance_le_of_earlier (fun _ reaches => reaches.earlier earlier (Nat.le_of_lt inOrder))
      (reachable other known)

end Automaton

/-- For every grammar that declarations define, the search for states ends, and what it leaves is the canonical
collection of item sets, numbered breadth first. -/
theorem Grammar.automaton_canonical {declarations : List (Declaration α)} {grammar : Grammar α}
    (accepted : Grammar.ofDeclarations declarations = .ok grammar) :
    (∃ steps last, Search.Ends grammar (FirstSets.compute grammar) steps .initial last ∧
        last.result = grammar.automaton.contents ∧
        ∀ others other, Search.Ends grammar (FirstSets.compute grammar) others .initial other → other = last) ∧
      grammar.automaton.contents.map Prod.fst = List.range grammar.automaton.states.size ∧
      grammar.automaton.IsCollection grammar (FirstSets.compute grammar) := by
  have wellFormed := Grammar.wellFormed_of_declarations accepted
  obtain ⟨steps, last, ends, isResult⟩ := Search.exists_ends wellFormed (.compute grammar)
  refine ⟨⟨steps, last, ends, isResult, fun _ _ ends' => ends'.unique ends⟩, ?_,
    Automaton.generate_isCollection wellFormed (.compute grammar)⟩
  rw [Automaton.contents, List.map_map, List.range_eq_range', ← Array.length_toList]
  exact List.zipIdx_map_snd 0 _

/-- The automaton of nested parentheses. -/
theorem Grammar.automaton_canonical_nested :
    Grammar.ofDeclarations Grammar.nestedDeclarations = .ok Grammar.nested ∧
      Grammar.nested.automaton.IsCollection Grammar.nested (FirstSets.compute Grammar.nested) :=
  ⟨Grammar.nested_accepted, (Grammar.automaton_canonical Grammar.nested_accepted).2.2⟩

end CoolLang
