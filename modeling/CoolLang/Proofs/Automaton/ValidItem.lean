import CoolLang.Proofs.Automaton.Exploration

/-!
The states of the canonical automaton hold the valid items. A nonterminal is reached in a context: what
was read before it and what is to come after it (`Grammar.Reached`). An item is valid for a string in
a context (`Grammar.Valid`) when the string ends with what the item has behind its marker and the
item's nonterminal is reached before that. Along every path from state 0 the items are the valid ones
(`Automaton.Canonical.valid_of_mem`, `Automaton.Canonical.mem_of_valid`), each with the terminals that
begin one of its contexts before the end of input.
-/

namespace CoolLang

variable {α : Type}

namespace Item

variable {grammar : Grammar α} {item : Item} {symbol : Symbol} {others : List Symbol}

theorem next?_of_drop (after : (grammar.right item.rule).drop item.marker = symbol :: others) :
    item.next? grammar = some symbol := by
  rw [next?, ← List.head?_drop, after]
  rfl

theorem drop_advance (after : (grammar.right item.rule).drop item.marker = symbol :: others) :
    (grammar.right item.advance.rule).drop item.advance.marker = others := by
  rw [advance, ← List.tail_drop, after]
  rfl

end Item

namespace Grammar

/-- `Reached left read context`: after `read`, the nonterminal `left` may come, and then `context`. -/
inductive Reached (grammar : Grammar α) : Nonterminal → List Symbol → List Symbol → Prop where
  | start : Reached grammar Nonterminal.augmented [] []
  | step {number : RuleId} {rule : Rule α} {read context : List Symbol}
      (reached : Reached grammar rule.left read context)
      (known : grammar.rule? number = some rule) {before after : List Symbol}
      {nonterminal : Nonterminal} (right : rule.right = before ++ .nonterminal nonterminal :: after) :
      Reached grammar nonterminal (read ++ before) (after ++ context)

/-- `Valid read item context`: after `read`, the rest of the item's rule may come, and then
`context`. -/
def Valid (grammar : Grammar α) (read : List Symbol) (item : Item) (context : List Symbol) : Prop :=
  ∃ rule before, grammar.rule? item.rule = some rule ∧ item.marker ≤ rule.right.length ∧
    read = before ++ rule.right.take item.marker ∧ grammar.Reached rule.left before context

variable {grammar : Grammar α} {read context : List Symbol} {item : Item}

theorem Reached.valid {number : RuleId} {rule : Rule α} (known : grammar.rule? number = some rule)
    (reached : grammar.Reached rule.left read context) : grammar.Valid read ⟨number, 0⟩ context :=
  ⟨rule, read, known, Nat.zero_le _, by rw [List.take_zero, List.append_nil], reached⟩

theorem Reached.valid_within {number : RuleId} {rule : Rule α}
    (known : grammar.rule? number = some rule) (reached : grammar.Reached rule.left read context)
    {before after : List Symbol} (right : rule.right = before ++ after) :
    grammar.Valid (read ++ before) ⟨number, before.length⟩ context := by
  refine ⟨rule, read, known, ?_, ?_, reached⟩
  · rw [right, List.length_append]
    exact Nat.le_add_right _ _
  · rw [right, List.take_left]

theorem Valid.reached_of_complete {number : RuleId} {rule : Rule α}
    (known : grammar.rule? number = some rule)
    (valid : grammar.Valid read ⟨number, rule.right.length⟩ context) :
    ∃ before, read = before ++ rule.right ∧ grammar.Reached rule.left before context := by
  obtain ⟨rule', before, known', _, whole, reached⟩ := valid
  dsimp only at known' whole
  rw [known] at known'
  cases known'
  rw [List.take_length] at whole
  exact ⟨before, whole, reached⟩

theorem Valid.reached {nonterminal : Nonterminal} {rest : List Symbol}
    (valid : grammar.Valid read item context)
    (after : (grammar.right item.rule).drop item.marker = .nonterminal nonterminal :: rest) :
    grammar.Reached nonterminal read (rest ++ context) := by
  obtain ⟨rule, before, known, _, rfl, reached⟩ := valid
  rw [right_eq known] at after
  refine reached.step known ?_
  rw [← after, List.take_append_drop]

theorem Valid.advance {symbol : Symbol} (valid : grammar.Valid read item context)
    (next : item.next? grammar = some symbol) :
    grammar.Valid (read ++ [symbol]) item.advance context := by
  obtain ⟨rule, before, known, _, rfl, reached⟩ := valid
  rw [Item.next?, right_eq known] at next
  refine ⟨rule, before, known, (List.getElem?_eq_some_iff.mp next).1, ?_, reached⟩
  rw [List.append_assoc, Item.advance, List.take_add_one, next]
  rfl

/-- What is to come after a reached nonterminal consists of usable symbols. -/
theorem Reached.usable (wellFormed : grammar.WellFormed) {nonterminal : Nonterminal}
    (reached : grammar.Reached nonterminal read context) :
    ∀ symbol ∈ context, grammar.Usable symbol := by
  induction reached with
  | start => intro symbol impossible; cases impossible
  | step _ known right ih =>
      intro symbol member
      rcases List.mem_append.mp member with inAfter | inContext
      · apply wellFormed.usable_of_mem_right known
        rw [right]
        exact List.mem_append_right _ (List.mem_cons_of_mem _ inAfter)
      · exact ih symbol inContext

/-- `$start` is reached at the very beginning only. -/
theorem Reached.of_augmented (wellFormed : grammar.WellFormed)
    (reached : grammar.Reached Nonterminal.augmented read context) : read = [] ∧ context = [] := by
  generalize same : Nonterminal.augmented = nonterminal at reached
  cases reached with
  | start => exact ⟨rfl, rfl⟩
  | @step number rule _ _ _ known before after _ right =>
      have usable : grammar.Usable (.nonterminal nonterminal) := by
        apply wellFormed.usable_of_mem_right known
        rw [right]
        exact List.mem_append_right _ List.mem_cons_self
      exact absurd same.symm usable.1

/-- The complete augmented item is valid after the start symbol only. -/
theorem Valid.of_augmented (wellFormed : grammar.WellFormed)
    (valid : grammar.Valid read ⟨RuleId.augmented, 1⟩ context) :
    read = [.nonterminal grammar.start] ∧ context = [] := by
  obtain ⟨rule, before, known, _, whole, reached⟩ := valid
  dsimp only at known whole
  rw [wellFormed.rule?_augmented] at known
  cases known
  obtain ⟨rfl, rfl⟩ := reached.of_augmented wellFormed
  exact ⟨whole, rfl⟩

theorem Reached.derives (wellFormed : grammar.WellFormed) {left : Nonterminal}
    (reached : grammar.Reached left read context) {number : RuleId} {rule : Rule α}
    (known : grammar.rule? number = some rule) (sameLeft : rule.left = left) :
    grammar.Derives [.nonterminal grammar.start] (read ++ (rule.right ++ context)) := by
  induction reached generalizing number rule with
  | start =>
      rw [wellFormed.augmented_of_left known sameLeft, wellFormed.rule?_augmented] at known
      cases known
      exact .refl _
  | @step outer outerRule read context _ outerKnown before after nonterminal right ih =>
      have outside := ih outerKnown rfl
      rw [right] at outside
      subst sameLeft
      have step := Rewrites.replace (read ++ before) (after ++ context) known
      simp only [List.append_assoc, List.cons_append] at outside step ⊢
      exact outside.trans (.single step)

/-- The start symbol derives what an item is valid for, then the rest of its rule, then the
context. -/
theorem Valid.derives (wellFormed : grammar.WellFormed) (valid : grammar.Valid read item context) :
    grammar.Derives [.nonterminal grammar.start]
      (read ++ ((grammar.right item.rule).drop item.marker ++ context)) := by
  obtain ⟨rule, before, known, _, rfl, reached⟩ := valid
  have whole := reached.derives wellFormed known rfl
  rw [right_eq known]
  rwa [List.append_assoc, ← List.append_assoc (List.take _ _), List.take_append_drop]

/-- The terminals that begin a context before the end of input. -/
def Foresees (grammar : Grammar α) (context : List Symbol) (terminal : Terminal) : Prop :=
  grammar.Begins terminal (context ++ [.terminal Terminal.eoi])

theorem foresees_append {front : List Symbol} {terminal : Terminal} :
    grammar.Foresees (front ++ context) terminal ↔
      grammar.Begins terminal front ∨
        grammar.Vanishes front ∧ grammar.Foresees context terminal := by
  rw [Foresees, List.append_assoc, Begins.append_iff]
  rfl

theorem foresees_nil {terminal : Terminal} :
    grammar.Foresees [] terminal ↔ terminal = Terminal.eoi := by
  constructor
  · exact Begins.eq_of_terminal
  · rintro rfl
    exact .terminal Terminal.eoi []

end Grammar

/-! ### Item sets -/

namespace ItemSet

variable {grammar : Grammar α} {read : List Symbol} {kernel : ItemSet}

def ValidEntry (grammar : Grammar α) (read : List Symbol) (entry : Item × TerminalSet) : Prop :=
  (∃ context, grammar.Valid read entry.1 context) ∧
    ∀ terminal ∈ entry.2, ∃ context, grammar.Valid read entry.1 context ∧
      grammar.Foresees context terminal

/-- What a valid entry expects after its marker is reached, in the contexts that its lookaheads
allow. -/
private theorem ValidEntry.expects {entry : Item × TerminalSet}
    (valid : ValidEntry grammar read entry) {nonterminal : Nonterminal} {rest : List Symbol}
    (after : (grammar.right entry.1.rule).drop entry.1.marker = .nonterminal nonterminal :: rest) :
    (∃ context, grammar.Reached nonterminal read context) ∧
      ∀ terminal ∈ (FirstSets.compute grammar).ofStringThen rest entry.2,
        ∃ context, grammar.Reached nonterminal read context ∧
          grammar.Foresees context terminal := by
  obtain ⟨⟨context, isValid⟩, lookaheads⟩ := valid
  refine ⟨⟨rest ++ context, isValid.reached after⟩, ?_⟩
  intro terminal member
  obtain ⟨beginning, ending⟩ := (FirstSets.compute_sound grammar).ofString rest
  rcases FirstSets.mem_ofStringThen.mp member with inRest | ⟨empty, inLookaheads⟩
  · refine ⟨rest ++ context, isValid.reached after, ?_⟩
    exact Grammar.foresees_append.mpr (Or.inl (beginning terminal inRest))
  · obtain ⟨context', isValid', foresees⟩ := lookaheads terminal inLookaheads
    refine ⟨rest ++ context', isValid'.reached after, ?_⟩
    exact Grammar.foresees_append.mpr (Or.inr ⟨ending empty, foresees⟩)

theorem closure_valid (valid : ∀ entry ∈ kernel, ValidEntry grammar read entry) :
    ∀ entry ∈ kernel.closure grammar (FirstSets.compute grammar),
      ValidEntry grammar read entry := by
  have bounded : (Predictions.compute grammar (FirstSets.compute grammar) kernel).Bounded
      (fun nonterminal => ∃ context, grammar.Reached nonterminal read context)
      (fun nonterminal terminal => ∃ context, grammar.Reached nonterminal read context ∧
        grammar.Foresees context terminal) := by
    apply Predictions.compute_bounded
    · intro entry member nonterminal rest after
      exact (valid entry member).expects after
    · intro number rule known expected lookaheads follows nonterminal rest right
      have start : ValidEntry grammar read (⟨number, 0⟩, lookaheads) := by
        obtain ⟨context, reached⟩ := expected
        refine ⟨⟨context, reached.valid known⟩, ?_⟩
        intro terminal member
        obtain ⟨context, reached, foresees⟩ := follows terminal member
        exact ⟨context, reached.valid known, foresees⟩
      apply start.expects
      rw [Grammar.right_eq known, List.drop_zero]
      exact right
  rintro ⟨⟨number, marker⟩, lookaheads⟩ member
  obtain ⟨rule, known, ⟨rfl, expected⟩ | inKernel⟩ := mem_closure.mp member
  · obtain ⟨⟨context, reached⟩, follows⟩ := bounded rule.left lookaheads expected
    refine ⟨⟨context, reached.valid known⟩, ?_⟩
    intro terminal inLookaheads
    obtain ⟨context, reached, foresees⟩ := follows terminal inLookaheads
    exact ⟨context, reached.valid known, foresees⟩
  · exact valid _ inKernel

theorem advanceOver_valid {items : ItemSet} (valid : ∀ entry ∈ items, ValidEntry grammar read entry)
    (symbol : Symbol) :
    ∀ entry ∈ items.advanceOver grammar symbol, ValidEntry grammar (read ++ [symbol]) entry := by
  rintro ⟨item, lookaheads⟩ member
  obtain ⟨before, inItems, next, rfl⟩ := mem_advanceOver.mp member
  obtain ⟨⟨context, isValid⟩, allowed⟩ := valid (before, lookaheads) inItems
  refine ⟨⟨context, isValid.advance next⟩, ?_⟩
  intro terminal inLookaheads
  obtain ⟨context, isValid, foresees⟩ := allowed terminal inLookaheads
  exact ⟨context, isValid.advance next, foresees⟩

theorem initialKernel_valid (wellFormed : grammar.WellFormed) :
    ∀ entry ∈ Exploration.initialKernel, ValidEntry grammar [] entry := by
  intro entry member
  cases List.mem_singleton.mp member
  have valid : grammar.Valid [] ⟨RuleId.augmented, 0⟩ [] :=
    Grammar.Reached.start.valid wellFormed.rule?_augmented
  refine ⟨⟨[], valid⟩, ?_⟩
  intro terminal inSet
  exact ⟨[], valid, Grammar.foresees_nil.mpr (TerminalSet.mem_singleton.mp inSet)⟩

/-- Whatever stands after a marker in a closure is expected there, with all that can follow it. -/
theorem closure_expects (wellFormed : grammar.WellFormed) (regular : kernel.Regular grammar)
    {item : Item} {lookaheads : TerminalSet}
    (member : (item, lookaheads) ∈ kernel.closure grammar (FirstSets.compute grammar))
    {nonterminal : Nonterminal} {rest : List Symbol}
    (after : (grammar.right item.rule).drop item.marker = .nonterminal nonterminal :: rest)
    {number : RuleId} {rule : Rule α} (known : grammar.rule? number = some rule)
    (sameLeft : rule.left = nonterminal) :
    ∃ set, (⟨number, 0⟩, set) ∈ kernel.closure grammar (FirstSets.compute grammar) ∧
      ((FirstSets.compute grammar).ofStringThen rest lookaheads).Included set := by
  have inRight : Symbol.nonterminal nonterminal ∈ grammar.right item.rule := by
    apply List.mem_of_mem_drop (i := item.marker)
    rw [after]
    exact List.mem_cons_self
  have declared := (wellFormed.usable_of_mem_right_number inRight).2
  obtain ⟨set, expected, included⟩ : ∃ set,
      (Predictions.compute grammar (FirstSets.compute grammar) kernel).get? nonterminal = some set ∧
        ((FirstSets.compute grammar).ofStringThen rest lookaheads).Included set := by
    obtain ⟨outer, outerKnown, ⟨atStart, expected⟩ | inKernel⟩ := mem_closure.mp member
    · rw [atStart, List.drop_zero, Grammar.right_eq outerKnown] at after
      exact Predictions.compute_of_rule (.compute grammar) regular.within outerKnown expected
        declared after
    · exact Predictions.compute_of_kernel inKernel declared after
  refine ⟨set, mem_closure.mpr ⟨rule, known, Or.inl ⟨rfl, ?_⟩⟩, included⟩
  rw [sameLeft]
  exact expected

end ItemSet

/-! ### Paths -/

namespace Automaton

/-- `Path read state below`: reading `read` leads from state 0 to `state`, through the states of
`below`, the latest first. -/
inductive Path (automaton : Automaton) : List Symbol → StateId → List StateId → Prop where
  | start : Path automaton [] 0 []
  | step {read : List Symbol} {state : StateId} {below : List StateId} {symbol : Symbol}
      {next : StateId} (path : Path automaton read state below)
      (leads : automaton.transition? state symbol = some next) :
      Path automaton (read ++ [symbol]) next (state :: below)

variable {automaton : Automaton} {read : List Symbol} {state : StateId} {below : List StateId}

/-- Every stretch at the end of a path can be taken back. -/
theorem Path.drop {front back : List Symbol} (path : automaton.Path (front ++ back) state below) :
    ∃ top rest, (state :: below).drop back.length = top :: rest ∧
      automaton.Path front top rest := by
  generalize whole : front ++ back = read at path
  induction path generalizing back with
  | start =>
      obtain ⟨rfl, rfl⟩ := List.append_eq_nil_iff.mp whole
      exact ⟨0, [], rfl, .start⟩
  | @step read state below symbol next path leads ih =>
      rcases List.eq_nil_or_concat' back with rfl | ⟨back, last, rfl⟩
      · rw [List.append_nil] at whole
        rw [whole]
        exact ⟨next, state :: below, rfl, path.step leads⟩
      · rw [← List.append_assoc] at whole
        obtain ⟨whole, _⟩ := List.append_inj' whole rfl
        obtain ⟨top, rest, dropped, path'⟩ := ih whole
        refine ⟨top, rest, ?_, path'⟩
        rw [List.length_append, List.length_singleton, List.drop_succ_cons]
        exact dropped

/-- The last step of a path. -/
theorem Path.last {symbol : Symbol} (path : automaton.Path (read ++ [symbol]) state below) :
    ∃ before rest, below = before :: rest ∧ automaton.Path read before rest ∧
      automaton.transition? before symbol = some state := by
  generalize whole : read ++ [symbol] = string at path
  cases path with
  | start => simp at whole
  | @step read' before rest symbol' _ path leads =>
      obtain ⟨sameRead, sameSymbol⟩ := List.append_inj' whole rfl
      cases sameSymbol
      subst sameRead
      exact ⟨before, rest, rfl, path, leads⟩

namespace Canonical

variable {grammar : Grammar α} {firsts : FirstSets}

theorem transition?_eq_some (canonical : automaton.Canonical grammar firsts) {symbol : Symbol}
    {next : StateId} (leads : automaton.transition? state symbol = some next) :
    ∃ source target, automaton.states[state]? = some source ∧
      automaton.states[next]? = some target ∧
        target.kernel = source.items.advanceOver grammar symbol ∧
          symbol ∈ source.items.nextSymbols grammar := by
  unfold Automaton.transition? at leads
  obtain ⟨source, found, leads⟩ := Option.bind_eq_some_iff.mp leads
  obtain ⟨target, found', kernel⟩ := canonical.successor state source found symbol next leads
  exact ⟨source, target, found, found', kernel,
    (canonical.connected state source found symbol).mp ⟨next, leads⟩⟩

theorem exists_transition? (canonical : automaton.Canonical grammar firsts) {source : State}
    (found : automaton.states[state]? = some source) {item : Item} {lookaheads : TerminalSet}
    (member : (item, lookaheads) ∈ source.items) {symbol : Symbol}
    (next : item.next? grammar = some symbol) :
    ∃ target, automaton.transition? state symbol = some target := by
  have isNext := ItemSet.mem_nextSymbols.mpr ⟨(item, lookaheads), member, next⟩
  obtain ⟨target, leads⟩ := (canonical.connected state source found symbol).mpr isNext
  refine ⟨target, ?_⟩
  rw [Automaton.transition?, found]
  exact leads

theorem exists_state (canonical : automaton.Canonical grammar firsts)
    (path : automaton.Path read state below) : ∃ found, automaton.states[state]? = some found := by
  cases path with
  | start =>
      obtain ⟨found, isFound, _⟩ := canonical.initial
      exact ⟨found, isFound⟩
  | step _ leads =>
      obtain ⟨_, target, _, isFound, _⟩ := canonical.transition?_eq_some leads
      exact ⟨target, isFound⟩

end Canonical

section Valid

variable {grammar : Grammar α} {found : State} {item : Item} {lookaheads : TerminalSet}
  {context : List Symbol}

/-- The items of a state are valid for every string that leads to it. -/
theorem Canonical.valid_of_mem (canonical : automaton.Canonical grammar (FirstSets.compute grammar))
    (wellFormed : grammar.WellFormed) (path : automaton.Path read state below)
    (isFound : automaton.states[state]? = some found) :
    ∀ entry ∈ found.items, ItemSet.ValidEntry grammar read entry := by
  induction path generalizing found with
  | start =>
      obtain ⟨first, isFirst, kernel⟩ := canonical.initial
      rw [isFound] at isFirst
      cases isFirst
      rw [canonical.items_eq 0 found isFound, kernel]
      exact ItemSet.closure_valid (ItemSet.initialKernel_valid wellFormed)
  | @step read state below symbol next _ leads ih =>
      obtain ⟨source, target, isSource, isTarget, kernel, _⟩ := canonical.transition?_eq_some leads
      rw [isFound] at isTarget
      cases isTarget
      rw [canonical.items_eq next found isFound, kernel]
      exact ItemSet.closure_valid (ItemSet.advanceOver_valid (ih isSource) symbol)

/-- An entry of an item that covers a context has all its lookaheads. -/
private def Covers (grammar : Grammar α) (items : ItemSet) (item : Item) (context : List Symbol) :
    Prop :=
  ∃ lookaheads, (item, lookaheads) ∈ items ∧
    ∀ terminal, grammar.Foresees context terminal → terminal ∈ lookaheads

private theorem covers_advance
    (canonical : automaton.Canonical grammar (FirstSets.compute grammar)) {symbol : Symbol}
    {source target : State} {next : StateId}
    (isSource : automaton.states[state]? = some source)
    (isTarget : automaton.states[next]? = some target)
    (leads : automaton.transition? state symbol = some next) (isNext : item.next? grammar = some symbol)
    (covers : Covers grammar source.items item context) :
    Covers grammar target.items item.advance context := by
  obtain ⟨source', target', isSource', isTarget', kernel, _⟩ :=
    canonical.transition?_eq_some leads
  rw [isSource] at isSource'
  rw [isTarget] at isTarget'
  cases isSource'
  cases isTarget'
  obtain ⟨lookaheads, member, all⟩ := covers
  refine ⟨lookaheads, ?_, all⟩
  have advanced := ItemSet.mem_advanceOver.mpr ⟨item, member, isNext, rfl⟩
  rw [← kernel] at advanced
  obtain ⟨rule, known, _⟩ := (canonical.regular next target isTarget).known _ advanced
  rw [canonical.items_eq next target isTarget]
  exact ItemSet.mem_closure.mpr ⟨rule, known, Or.inr advanced⟩

/-- From the start of a rule on, an item is carried along the right-hand side. -/
private theorem covers_of_start
    (canonical : automaton.Canonical grammar (FirstSets.compute grammar)) {number : RuleId}
    {rule : Rule α} (known : grammar.rule? number = some rule)
    (start : ∀ state below found, automaton.Path read state below →
      automaton.states[state]? = some found → Covers grammar found.items ⟨number, 0⟩ context)
    {marker : Nat} (inside : marker ≤ rule.right.length)
    (path : automaton.Path (read ++ rule.right.take marker) state below)
    (isFound : automaton.states[state]? = some found) :
    Covers grammar found.items ⟨number, marker⟩ context := by
  induction marker generalizing state below found with
  | zero =>
      rw [List.take_zero, List.append_nil] at path
      exact start state below found path isFound
  | succ marker ih =>
      have present := List.getElem?_eq_getElem (show marker < rule.right.length from inside)
      rw [List.take_add_one, present, ← List.append_assoc] at path
      obtain ⟨before, rest, rfl, path', leads⟩ := path.last
      obtain ⟨source, isSource⟩ := canonical.exists_state path'
      have covers := ih (Nat.le_of_succ_le inside) path' isSource
      refine covers_advance canonical isSource isFound leads ?_ covers
      rw [Item.next?, Grammar.right_eq known]
      exact present

private theorem covers_of_reached
    (canonical : automaton.Canonical grammar (FirstSets.compute grammar))
    (wellFormed : grammar.WellFormed) {left : Nonterminal}
    (reached : grammar.Reached left read context) {number : RuleId} {rule : Rule α}
    (known : grammar.rule? number = some rule) (sameLeft : rule.left = left)
    (path : automaton.Path read state below) (isFound : automaton.states[state]? = some found) :
    Covers grammar found.items ⟨number, 0⟩ context := by
  induction reached generalizing number rule state below found with
  | start =>
      generalize same : ([] : List Symbol) = string at path
      cases path with
      | step => simp at same
      | start =>
          obtain ⟨first, isFirst, kernel⟩ := canonical.initial
          rw [isFound] at isFirst
          cases isFirst
          rw [wellFormed.augmented_of_left known sameLeft]
          refine ⟨.singleton Terminal.eoi, ?_, ?_⟩
          · rw [canonical.items_eq 0 found isFound]
            refine ItemSet.mem_closure.mpr ⟨_, wellFormed.rule?_augmented, Or.inr ?_⟩
            rw [kernel]
            exact List.mem_singleton.mpr rfl
          · intro terminal foresees
            exact TerminalSet.mem_singleton.mpr (Grammar.foresees_nil.mp foresees)
  | @step outer outerRule read context _ outerKnown before after nonterminal right ih =>
      have outerPath : automaton.Path (read ++ outerRule.right.take before.length) state below := by
        rw [right, List.take_left]
        exact path
      have inside : before.length ≤ outerRule.right.length := by
        rw [right, List.length_append]
        exact Nat.le_add_right _ _
      obtain ⟨lookaheads, member, all⟩ := covers_of_start canonical outerKnown
        (fun state below found path isFound => ih outerKnown rfl path isFound) inside outerPath isFound
      rw [canonical.items_eq state found isFound] at member ⊢
      have rest : (grammar.right outer).drop before.length = .nonterminal nonterminal :: after := by
        rw [Grammar.right_eq outerKnown, right, List.drop_left]
      obtain ⟨set, start, included⟩ := ItemSet.closure_expects wellFormed
        (canonical.regular state found isFound) member rest known sameLeft
      refine ⟨set, start, ?_⟩
      intro terminal foresees
      apply included
      have declared : ∀ symbol ∈ after, grammar.Declared symbol := by
        intro symbol inAfter
        apply (wellFormed.usable_of_mem_right outerKnown _).declared
        rw [right]
        exact List.mem_append_right _ (List.mem_cons_of_mem _ inAfter)
      rw [FirstSets.mem_ofStringThen_compute wellFormed declared]
      rcases Grammar.foresees_append.mp foresees with begins | ⟨vanishes, beyond⟩
      · exact Or.inl begins
      · exact Or.inr ⟨vanishes, all terminal beyond⟩

/-- A valid item is in every state that its string leads to, with all lookaheads of its context. -/
theorem Canonical.mem_of_valid (canonical : automaton.Canonical grammar (FirstSets.compute grammar))
    (wellFormed : grammar.WellFormed) (valid : grammar.Valid read item context)
    (path : automaton.Path read state below) (isFound : automaton.states[state]? = some found) :
    ∃ lookaheads, (item, lookaheads) ∈ found.items ∧
      ∀ terminal, grammar.Foresees context terminal → terminal ∈ lookaheads := by
  obtain ⟨rule, before, known, inside, rfl, reached⟩ := valid
  exact covers_of_start canonical known
    (fun state below found path isFound =>
      covers_of_reached canonical wellFormed reached known rfl path isFound) inside path isFound

/-- What a valid item has after its marker leads on. -/
theorem Canonical.leads_of_valid
    (canonical : automaton.Canonical grammar (FirstSets.compute grammar))
    (wellFormed : grammar.WellFormed) (valid : grammar.Valid read item context)
    (path : automaton.Path read state below) {symbol : Symbol}
    (isNext : item.next? grammar = some symbol) :
    ∃ next, automaton.transition? state symbol = some next := by
  obtain ⟨found, isFound⟩ := canonical.exists_state path
  obtain ⟨lookaheads, member, _⟩ := canonical.mem_of_valid wellFormed valid path isFound
  exact canonical.exists_transition? isFound member isNext

/-- Some item is valid for every string that leads to a state. -/
theorem Canonical.exists_valid (canonical : automaton.Canonical grammar (FirstSets.compute grammar))
    (wellFormed : grammar.WellFormed) (path : automaton.Path read state below) :
    ∃ item context, grammar.Valid read item context := by
  cases path with
  | start => exact ⟨_, [], Grammar.Reached.start.valid wellFormed.rule?_augmented⟩
  | @step read state below symbol next path leads =>
      obtain ⟨source, _, isSource, _, _, isNext⟩ := canonical.transition?_eq_some leads
      obtain ⟨entry, member, next⟩ := ItemSet.mem_nextSymbols.mp isNext
      obtain ⟨⟨context, valid⟩, _⟩ := canonical.valid_of_mem wellFormed path isSource entry member
      exact ⟨entry.1.advance, context, valid.advance next⟩

end Valid

end Automaton

end CoolLang
