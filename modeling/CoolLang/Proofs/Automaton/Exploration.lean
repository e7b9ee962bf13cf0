import CoolLang.Proofs.Automaton.Kernel

/-!
The search for states finds all of them. It completes every kernel that it discovers, because regular
kernels are few. So the generated automaton is connected by its kernels (`Automaton.Canonical`): state
0 has the initial kernel, every state's items are the closure of its kernel, and its transitions lead,
over every symbol after a marker and no other, to the state whose kernel is the advanced items.
-/

namespace CoolLang

variable {α : Type}

/-- Whether every known kernel keeps its number. -/
def Exploration.Extends (before after : Array ItemSet) : Prop :=
  ∀ (state : StateId) (kernel : ItemSet), before[state]? = some kernel → after[state]? = some kernel

namespace Exploration

theorem Extends.refl (kernels : Array ItemSet) : Extends kernels kernels :=
  fun _ _ found => found

theorem Extends.trans {first second third : Array ItemSet} (lower : Extends first second)
    (upper : Extends second third) : Extends first third :=
  fun state kernel found => upper state kernel (lower state kernel found)

theorem Extends.push (kernels : Array ItemSet) (kernel : ItemSet) :
    Extends kernels (kernels.push kernel) := by
  intro state known found
  have inRange := (Array.getElem?_eq_some_iff.mp found).1
  rw [Array.getElem?_push_lt inRange, ← Array.getElem?_eq_getElem inRange]
  exact found

/-! ### Numbering kernels -/

section Numbering

variable {kernels : Array ItemSet} {kernel : ItemSet}

theorem extends_numberOf : Extends kernels (numberOf kernels kernel).2 := by
  unfold numberOf
  split
  · exact .refl kernels
  · exact .push kernels kernel

theorem getElem?_numberOf :
    (numberOf kernels kernel).2[(numberOf kernels kernel).1]? = some kernel := by
  unfold numberOf
  split
  · rename_i state found
    obtain ⟨inRange, same, _⟩ := Array.findIdx?_eq_some_iff_getElem.mp found
    rw [Array.getElem?_eq_getElem inRange, eq_of_beq same]
  · exact Array.getElem?_push_size

theorem nodup_numberOf (distinct : kernels.toList.Nodup) :
    (numberOf kernels kernel).2.toList.Nodup := by
  unfold numberOf
  split
  · exact distinct
  · rename_i missing
    rw [Array.toList_push, List.nodup_append]
    refine ⟨distinct, List.nodup_singleton kernel, ?_⟩
    intro known present other isKernel same
    rw [List.mem_singleton] at isKernel
    subst isKernel same
    have different := Array.findIdx?_eq_none_iff.mp missing known (Array.mem_toList_iff.mp present)
    rw [beq_self_eq_true] at different
    cases different

theorem mem_numberOf {known : ItemSet} (member : known ∈ (numberOf kernels kernel).2) :
    known ∈ kernels ∨ known = kernel := by
  unfold numberOf at member
  split at member
  · exact Or.inl member
  · exact Array.mem_push.mp member

end Numbering

/-! ### Transitions -/

variable {grammar : Grammar α} {items : ItemSet}

theorem connect_cons (symbol : Symbol) (symbols : List Symbol) (kernels : Array ItemSet) :
    connect grammar items (symbol :: symbols) kernels =
      ((symbol, (numberOf kernels (items.advanceOver grammar symbol)).1) ::
          (connect grammar items symbols
            (numberOf kernels (items.advanceOver grammar symbol)).2).1,
        (connect grammar items symbols
          (numberOf kernels (items.advanceOver grammar symbol)).2).2) := rfl

theorem extends_connect (symbols : List Symbol) (kernels : Array ItemSet) :
    Extends kernels (connect grammar items symbols kernels).2 := by
  induction symbols generalizing kernels with
  | nil => exact .refl kernels
  | cons symbol symbols ih =>
      rw [connect_cons]
      exact extends_numberOf.trans (ih _)

theorem map_fst_connect (symbols : List Symbol) (kernels : Array ItemSet) :
    (connect grammar items symbols kernels).1.map Prod.fst = symbols := by
  induction symbols generalizing kernels with
  | nil => rfl
  | cons symbol symbols ih =>
      rw [connect_cons, List.map_cons, ih]

theorem getElem?_connect (symbols : List Symbol) (kernels : Array ItemSet) :
    ∀ entry ∈ (connect grammar items symbols kernels).1,
      (connect grammar items symbols kernels).2[entry.2]? =
        some (items.advanceOver grammar entry.1) := by
  induction symbols generalizing kernels with
  | nil => intro entry impossible; cases impossible
  | cons symbol symbols ih =>
      rw [connect_cons]
      intro entry member
      rcases List.mem_cons.mp member with rfl | inTail
      · exact extends_connect symbols _ _ _ getElem?_numberOf
      · exact ih _ entry inTail

theorem nodup_connect (symbols : List Symbol) {kernels : Array ItemSet}
    (distinct : kernels.toList.Nodup) :
    (connect grammar items symbols kernels).2.toList.Nodup := by
  induction symbols generalizing kernels with
  | nil => exact distinct
  | cons symbol symbols ih =>
      rw [connect_cons]
      exact ih (nodup_numberOf distinct)

theorem mem_connect (symbols : List Symbol) {kernels : Array ItemSet} {known : ItemSet}
    (member : known ∈ (connect grammar items symbols kernels).2) :
    known ∈ kernels ∨ ∃ symbol, known = items.advanceOver grammar symbol := by
  induction symbols generalizing kernels with
  | nil => exact Or.inl member
  | cons symbol symbols ih =>
      rw [connect_cons] at member
      rcases ih member with present | advanced
      · exact (mem_numberOf present).imp_right fun same => ⟨symbol, same⟩
      · exact Or.inr advanced

/-! ### Searching -/

/-- What a completed state is with regard to the known kernels. -/
structure Complete (grammar : Grammar α) (firsts : FirstSets) (kernels : Array ItemSet)
    (state : State) : Prop where
  items_eq : state.items = state.kernel.closure grammar firsts
  symbols_eq : state.transitions.map Prod.fst = state.items.nextSymbols grammar
  leads : ∀ entry ∈ state.transitions,
    kernels[entry.2]? = some (state.items.advanceOver grammar entry.1)

/-- What every stage of the search satisfies. -/
structure Regular (grammar : Grammar α) (firsts : FirstSets) (exploration : Exploration) :
    Prop where
  initial : exploration.kernels[0]? = some initialKernel
  distinct : exploration.kernels.toList.Nodup
  regular : ∀ kernel ∈ exploration.kernels, kernel.Regular grammar
  discovered : exploration.completed.size ≤ exploration.kernels.size
  kernel_eq : ∀ (number : StateId) (state : State), exploration.completed[number]? = some state →
    exploration.kernels[number]? = some state.kernel
  complete : ∀ state ∈ exploration.completed, Complete grammar firsts exploration.kernels state

variable {firsts : FirstSets}

theorem Complete.extend {before after : Array ItemSet} {state : State}
    (complete : Complete grammar firsts before state) (extension : Extends before after) :
    Complete grammar firsts after state where
  items_eq := complete.items_eq
  symbols_eq := complete.symbols_eq
  leads := fun entry member => extension _ _ (complete.leads entry member)

theorem Regular.start (wellFormed : grammar.WellFormed) :
    Exploration.initial.Regular grammar firsts where
  initial := rfl
  distinct := List.nodup_singleton _
  regular := by
    intro kernel member
    have same : kernel = initialKernel := by simpa [Exploration.initial] using member
    rw [same]
    exact .initialKernel wellFormed
  discovered := Nat.zero_le _
  kernel_eq := by intro number state impossible; simp [Exploration.initial] at impossible
  complete := by intro state impossible; simp [Exploration.initial] at impossible

theorem Regular.complete_next {exploration : Exploration}
    (regular : exploration.Regular grammar firsts) (wellFormed : grammar.WellFormed)
    (sizedFirsts : firsts.Sized grammar) {kernel : ItemSet}
    (next : exploration.kernels[exploration.completed.size]? = some kernel) :
    (exploration.complete grammar firsts kernel).Regular grammar firsts := by
  have kernelRegular := regular.regular kernel (Array.mem_of_getElem? next)
  have inRange := (Array.getElem?_eq_some_iff.mp next).1
  have extension : Extends exploration.kernels
      (exploration.complete grammar firsts kernel).kernels := extends_connect _ _
  have ofPush : ∀ (number : StateId) (state : State),
      (exploration.complete grammar firsts kernel).completed[number]? = some state →
        exploration.completed[number]? = some state ∨
          number = exploration.completed.size ∧ state.kernel = kernel ∧
            Complete grammar firsts (exploration.complete grammar firsts kernel).kernels state := by
    intro number state found
    simp only [Exploration.complete, Array.getElem?_push] at found
    split at found
    · rename_i isLast
      cases found
      exact Or.inr ⟨isLast, rfl, rfl, map_fst_connect _ _, getElem?_connect _ _⟩
    · exact Or.inl found
  refine ⟨extension _ _ regular.initial, nodup_connect _ regular.distinct, ?_, ?_, ?_, ?_⟩
  · intro known member
    rcases mem_connect _ member with present | ⟨symbol, rfl⟩
    · exact regular.regular known present
    · exact kernelRegular.advanceOver wellFormed sizedFirsts symbol
  · have grown := extension exploration.completed.size kernel next
    have inRange' := (Array.getElem?_eq_some_iff.mp grown).1
    simp only [Exploration.complete, Array.size_push]
    exact inRange'
  · intro number state found
    rcases ofPush number state found with old | ⟨rfl, rfl, _⟩
    · exact extension _ _ (regular.kernel_eq number state old)
    · exact extension _ _ next
  · intro state member
    obtain ⟨number, found⟩ := Array.mem_iff_getElem?.mp member
    rcases ofPush number state found with old | ⟨_, _, complete⟩
    · exact (regular.complete state (Array.mem_of_getElem? old)).extend extension
    · exact complete

/-- A search with enough steps left completes every kernel. -/
theorem Regular.run {exploration : Exploration} (regular : exploration.Regular grammar firsts)
    (wellFormed : grammar.WellFormed) (sizedFirsts : firsts.Sized grammar) (states : Nat)
    (enough : Automaton.stateLimit grammar ≤ exploration.completed.size + states) :
    (exploration.run grammar firsts states).Regular grammar firsts ∧
      (exploration.run grammar firsts states).kernels.size =
        (exploration.run grammar firsts states).completed.size := by
  induction states generalizing exploration with
  | zero =>
      refine ⟨regular, ?_⟩
      have few : exploration.kernels.size ≤ Automaton.stateLimit grammar := by
        rw [← Array.length_toList]
        apply ItemSet.length_le_stateLimit regular.distinct
        intro kernel member
        exact regular.regular kernel (Array.mem_toList_iff.mp member)
      have discovered := regular.discovered
      simp only [Exploration.run]
      omega
  | succ states ih =>
      unfold Exploration.run
      split
      · rename_i finished
        refine ⟨regular, ?_⟩
        have outside := Array.getElem?_eq_none_iff.mp finished
        exact Nat.le_antisymm outside regular.discovered
      · rename_i kernel next
        apply ih (regular.complete_next wellFormed sizedFirsts next)
        simp only [Exploration.complete, Array.size_push]
        omega

end Exploration

/-! ### The automaton -/

/-- How the states of an automaton are connected. -/
structure Automaton.Canonical (grammar : Grammar α) (firsts : FirstSets) (automaton : Automaton) :
    Prop where
  initial : ∃ state, automaton.states[0]? = some state ∧ state.kernel = Exploration.initialKernel
  regular : ∀ (number : StateId) (state : State), automaton.states[number]? = some state →
    state.kernel.Regular grammar
  items_eq : ∀ (number : StateId) (state : State), automaton.states[number]? = some state →
    state.items = state.kernel.closure grammar firsts
  connected : ∀ (number : StateId) (state : State), automaton.states[number]? = some state →
    ∀ symbol, (∃ next, state.transition? symbol = some next) ↔
      symbol ∈ state.items.nextSymbols grammar
  successor : ∀ (number : StateId) (state : State), automaton.states[number]? = some state →
    ∀ symbol next, state.transition? symbol = some next →
      ∃ state', automaton.states[next]? = some state' ∧
        state'.kernel = state.items.advanceOver grammar symbol

namespace State

theorem transition?_eq_some {state : State} {symbol : Symbol} {next : StateId}
    (found : state.transition? symbol = some next) : (symbol, next) ∈ state.transitions := by
  obtain ⟨⟨label, target⟩, isFound, rfl⟩ := Option.map_eq_some_iff.mp found
  have sameLabel := List.find?_some isFound
  rw [← eq_of_beq sameLabel]
  exact List.mem_of_find?_eq_some isFound

theorem exists_transition?_iff {state : State} {symbol : Symbol} :
    (∃ next, state.transition? symbol = some next) ↔
      symbol ∈ state.transitions.map Prod.fst := by
  constructor
  · rintro ⟨next, found⟩
    exact List.mem_map.mpr ⟨(symbol, next), transition?_eq_some found, rfl⟩
  · intro member
    obtain ⟨entry, present, rfl⟩ := List.mem_map.mp member
    unfold transition?
    cases found : state.transitions.find? fun other => other.1 == entry.1 with
    | none =>
        have different := List.find?_eq_none.mp found entry present
        rw [beq_self_eq_true] at different
        exact absurd rfl different
    | some other => exact ⟨other.2, rfl⟩

end State

theorem Automaton.generate_canonical {grammar : Grammar α} {firsts : FirstSets}
    (wellFormed : grammar.WellFormed) (sizedFirsts : firsts.Sized grammar) :
    (Automaton.generate grammar firsts).Canonical grammar firsts := by
  have start : Exploration.initial.Regular grammar firsts := .start wellFormed
  obtain ⟨regular, finished⟩ := start.run wellFormed sizedFirsts (stateLimit grammar)
    (Nat.le_add_left _ _)
  have completed : ∀ (number : StateId) (kernel : ItemSet),
      (Exploration.initial.run grammar firsts (stateLimit grammar)).kernels[number]? = some kernel →
        ∃ state : State, (Automaton.generate grammar firsts).states[number]? = some state ∧
          state.kernel = kernel := by
    intro number kernel found
    have inRange := (Array.getElem?_eq_some_iff.mp found).1
    rw [finished] at inRange
    have present := Array.getElem?_eq_getElem inRange
    refine ⟨_, present, ?_⟩
    rw [regular.kernel_eq number _ present] at found
    exact Option.some.inj found
  have complete : ∀ (number : StateId) (state : State), (Automaton.generate grammar firsts).states[number]? = some state →
      Exploration.Complete grammar firsts
        (Exploration.initial.run grammar firsts (stateLimit grammar)).kernels state :=
    fun number state found => regular.complete state (Array.mem_of_getElem? found)
  refine ⟨completed 0 _ regular.initial, ?_, ?_, ?_, ?_⟩
  · intro number state found
    exact regular.regular _ (Array.mem_of_getElem? (regular.kernel_eq number state found))
  · intro number state found
    exact (complete number state found).items_eq
  · intro number state found symbol
    rw [← (complete number state found).symbols_eq]
    exact State.exists_transition?_iff
  · intro number state found symbol next leads
    exact completed next _
      ((complete number state found).leads (symbol, next) (State.transition?_eq_some leads))

/-- The items of every state are in strict order. -/
theorem Automaton.Canonical.items_ordered {grammar : Grammar α} {firsts : FirstSets}
    {automaton : Automaton} (canonical : automaton.Canonical grammar firsts)
    (wellFormed : grammar.WellFormed) {number : StateId} {state : State}
    (found : automaton.states[number]? = some state) :
    state.items.Pairwise fun first second => first.1.Before second.1 := by
  rw [canonical.items_eq number state found]
  exact (canonical.regular number state found).closure_ordered wellFormed

namespace Exploration

variable {grammar : Grammar α} {firsts : FirstSets} {property : ItemSet → Prop}

private theorem property_of_run
    (advanced : ∀ kernel symbol, property kernel →
      property ((kernel.closure grammar firsts).advanceOver grammar symbol)) (states : Nat)
    {exploration : Exploration} (known : ∀ kernel ∈ exploration.kernels, property kernel) :
    ∀ kernel ∈ (exploration.run grammar firsts states).kernels, property kernel := by
  induction states generalizing exploration with
  | zero => exact known
  | succ states ih =>
      unfold run
      split
      · exact known
      · rename_i kernel next
        apply ih
        intro other member
        rcases mem_connect _ member with old | ⟨symbol, rfl⟩
        · exact known other old
        · exact advanced kernel symbol (known kernel (Array.mem_of_getElem? next))

end Exploration

/-- What holds of the initial kernel and is kept from a kernel to those after it holds of all. -/
theorem Automaton.property_of_generate {grammar : Grammar α} {firsts : FirstSets}
    (wellFormed : grammar.WellFormed) (sizedFirsts : firsts.Sized grammar)
    {property : ItemSet → Prop} (initial : property Exploration.initialKernel)
    (advanced : ∀ kernel symbol, property kernel →
      property ((kernel.closure grammar firsts).advanceOver grammar symbol))
    {number : StateId} {state : State}
    (found : (Automaton.generate grammar firsts).states[number]? = some state) :
    property state.kernel := by
  have start : Exploration.initial.Regular grammar firsts := .start wellFormed
  obtain ⟨regular, _⟩ := start.run wellFormed sizedFirsts (stateLimit grammar) (Nat.le_add_left _ _)
  have inKernels := regular.kernel_eq number state found
  refine Exploration.property_of_run advanced _ ?_ state.kernel (Array.mem_of_getElem? inKernels)
  intro kernel member
  have same : kernel = Exploration.initialKernel := by simpa [Exploration.initial] using member
  rw [same]
  exact initial

/-- The automaton from which the grammar's table is made. -/
def Grammar.automaton (grammar : Grammar α) : Automaton :=
  Automaton.generate grammar (FirstSets.compute grammar)

theorem Grammar.WellFormed.canonical {grammar : Grammar α} (wellFormed : grammar.WellFormed) :
    grammar.automaton.Canonical grammar (FirstSets.compute grammar) :=
  Automaton.generate_canonical wellFormed (.compute grammar)

/-- What holds of the initial kernel and is kept by closing and by reading a symbol holds of the items of
all states. -/
theorem Grammar.WellFormed.items_property {grammar : Grammar α} (wellFormed : grammar.WellFormed)
    {property : ItemSet → Prop} (initial : property Exploration.initialKernel)
    (closed : ∀ kernel, property kernel →
      property (kernel.closure grammar (FirstSets.compute grammar)))
    (advanced : ∀ items symbol, property items → property (items.advanceOver grammar symbol))
    {number : StateId} {state : State} (found : grammar.automaton.states[number]? = some state) :
    property state.items := by
  rw [wellFormed.canonical.items_eq number state found]
  apply closed
  apply Automaton.property_of_generate wellFormed (.compute grammar) initial _ found
  intro kernel symbol holds
  exact advanced _ symbol (closed kernel holds)

end CoolLang
