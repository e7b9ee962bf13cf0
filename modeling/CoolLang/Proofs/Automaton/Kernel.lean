import CoolLang.Automaton.Basic
import CoolLang.Proofs.Automaton.Closure
import CoolLang.Proofs.Counting

/-!
Kernels of states. A kernel is regular (`ItemSet.Regular`) when its items are items of the grammar in
strict order. The initial kernel is regular, and advancing the closure of a regular kernel gives a
regular kernel (`ItemSet.Regular.advanceOver`). There are no more regular kernels than
`Automaton.stateLimit` allows (`ItemSet.length_le_stateLimit`).
-/

namespace CoolLang

variable {α : Type}

/-! ### Items in order -/

def Item.Before (first second : Item) : Prop :=
  first.rule < second.rule ∨ first.rule = second.rule ∧ first.marker < second.marker

theorem Item.Before.asymm {first second : Item} (before : first.Before second) :
    ¬second.Before first := by
  unfold Item.Before at before ⊢
  simp only [RuleId] at before ⊢
  omega

namespace ItemSet

/-- What the kernel of every state satisfies. Only the augmented rule has an item in a kernel before
anything of the rule is read. -/
structure Regular (grammar : Grammar α) (kernel : ItemSet) : Prop where
  ordered : kernel.Pairwise fun first second => first.1.Before second.1
  known : ∀ entry ∈ kernel, ∃ rule, grammar.rule? entry.1.rule = some rule ∧
    entry.1.marker ≤ rule.right.length
  within : ∀ entry ∈ kernel, entry.2.Within grammar
  started : ∀ entry ∈ kernel, entry.1.marker = 0 → entry.1.rule = RuleId.augmented

/-- In an ordered item set an item has one set of lookaheads. -/
theorem lookaheads_unique {items : ItemSet}
    (ordered : items.Pairwise fun first second => first.1.Before second.1) {item : Item}
    {first second : TerminalSet} (inItems : (item, first) ∈ items)
    (inItems' : (item, second) ∈ items) : first = second := by
  induction ordered with
  | nil => cases inItems
  | @cons head tail before _ ih =>
      have irreflexive : ¬item.Before item := fun before => before.asymm before
      rcases List.mem_cons.mp inItems with rfl | inTail
      · rcases List.mem_cons.mp inItems' with same | inTail'
        · cases same
          rfl
        · exact absurd (before _ inTail') irreflexive
      · rcases List.mem_cons.mp inItems' with rfl | inTail'
        · exact absurd (before _ inTail) irreflexive
        · exact ih inTail inTail'

/-! ### Regular kernels are few -/

/-- All items of a grammar, complete ones included. -/
def allItems (grammar : Grammar α) : List Item :=
  grammar.numberedRules.flatMap fun numbered =>
    (List.range (numbered.1.right.length + 1)).map fun marker => ⟨numbered.2, marker⟩

private theorem length_allItems_from (rules : List (Rule α)) (first : Nat) :
    ((rules.zipIdx first).flatMap fun numbered =>
      (List.range (numbered.1.right.length + 1)).map fun marker =>
        (⟨numbered.2, marker⟩ : Item)).length =
      rules.foldr (fun rule count => count + rule.right.length + 1) 0 := by
  induction rules generalizing first with
  | nil => rfl
  | cons rule rules ih =>
      rw [List.zipIdx_cons, List.flatMap_cons, List.length_append, ih, List.length_map,
        List.length_range, List.foldr_cons, Nat.add_comm, Nat.add_assoc]

theorem length_allItems (grammar : Grammar α) :
    (allItems grammar).length = Automaton.itemCount grammar :=
  length_allItems_from grammar.rules 0

theorem mem_allItems {grammar : Grammar α} {item : Item} {rule : Rule α}
    (known : grammar.rule? item.rule = some rule) (inside : item.marker ≤ rule.right.length) :
    item ∈ allItems grammar := by
  refine List.mem_flatMap.mpr ⟨(rule, item.rule), Grammar.mem_numberedRules.mpr known, ?_⟩
  exact List.mem_map.mpr ⟨item.marker, List.mem_range.mpr (Nat.lt_succ_of_le inside), rfl⟩

/-- Fact 0 about an item is that it is present, fact `t + 1` that `t` is a lookahead of it. -/
private def facts (grammar : Grammar α) : Finset (Item × Nat) :=
  (allItems grammar).toFinset ×ˢ Finset.range (grammar.terminals.length + 1)

private def Holds (items : ItemSet) (fact : Item × Nat) : Prop :=
  ∃ entry ∈ items, entry.1 = fact.1 ∧
    (fact.2 = 0 ∨ ∃ terminal ∈ entry.2, fact.2 = terminal + 1)

open Classical in
private noncomputable def factsOf (grammar : Grammar α) (items : ItemSet) : Finset (Item × Nat) :=
  (facts grammar).filter items.Holds

open Classical in
private theorem mem_factsOf {grammar : Grammar α} {items : ItemSet} {fact : Item × Nat} :
    fact ∈ factsOf grammar items ↔
      (fact.1 ∈ allItems grammar ∧ fact.2 < grammar.terminals.length + 1) ∧ items.Holds fact := by
  rw [factsOf, Finset.mem_filter, facts, Finset.mem_product, List.mem_toFinset, Finset.mem_range]

private theorem Regular.subset_of_factsOf_eq {grammar : Grammar α} {first second : ItemSet}
    (regular : first.Regular grammar) (regular' : second.Regular grammar)
    (same : factsOf grammar first = factsOf grammar second) {entry : Item × TerminalSet}
    (member : entry ∈ first) :
    ∃ lookaheads, (entry.1, lookaheads) ∈ second ∧ entry.2.Included lookaheads := by
  obtain ⟨rule, known, inside⟩ := regular.known entry member
  have transfer : ∀ number < grammar.terminals.length + 1, first.Holds (entry.1, number) →
      second.Holds (entry.1, number) := by
    intro number bounded held
    have inFirst : (entry.1, number) ∈ factsOf grammar first :=
      mem_factsOf.mpr ⟨⟨mem_allItems known inside, bounded⟩, held⟩
    rw [same] at inFirst
    exact (mem_factsOf.mp inFirst).2
  obtain ⟨⟨item, lookaheads⟩, present, isItem, _⟩ :=
    transfer 0 (Nat.succ_pos _) ⟨entry, member, rfl, Or.inl rfl⟩
  simp only at isItem
  subst isItem
  refine ⟨lookaheads, present, ?_⟩
  intro terminal inEntry
  obtain ⟨⟨item, others⟩, present', isItem, impossible | ⟨other, inOthers, isTerminal⟩⟩ :=
    transfer (terminal + 1) (Nat.succ_lt_succ (regular.within entry member terminal inEntry))
      ⟨entry, member, rfl, Or.inr ⟨terminal, inEntry, rfl⟩⟩
  · cases impossible
  · simp only at isItem isTerminal inOthers
    subst isItem
    rw [lookaheads_unique regular'.ordered present present', Nat.succ.inj isTerminal]
    exact inOthers

private theorem Regular.mem_of_factsOf_eq {grammar : Grammar α} {first second : ItemSet}
    (regular : first.Regular grammar) (regular' : second.Regular grammar)
    (same : factsOf grammar first = factsOf grammar second) {entry : Item × TerminalSet}
    (member : entry ∈ first) : entry ∈ second := by
  obtain ⟨item, lookaheads⟩ := entry
  obtain ⟨larger, present, lower⟩ := regular.subset_of_factsOf_eq regular' same member
  obtain ⟨largest, member', upper⟩ := regular'.subset_of_factsOf_eq regular same.symm present
  have equal : lookaheads = larger := by
    have unique := lookaheads_unique regular.ordered member member'
    ext terminal
    refine ⟨lower terminal, fun inLarger => ?_⟩
    rw [unique]
    exact upper terminal inLarger
  rw [equal]
  exact present

theorem length_le_stateLimit {grammar : Grammar α} {kernels : List ItemSet}
    (distinct : kernels.Nodup) (regular : ∀ kernel ∈ kernels, kernel.Regular grammar) :
    kernels.length ≤ Automaton.stateLimit grammar := by
  have counted : kernels.length ≤ 2 ^ (facts grammar).card := by
    apply length_le_two_pow_card (factsOf grammar) distinct
    · intro kernel _ fact member
      obtain ⟨⟨inItems, bounded⟩, _⟩ := mem_factsOf.mp member
      rw [facts, Finset.mem_product, List.mem_toFinset, Finset.mem_range]
      exact ⟨inItems, bounded⟩
    · intro first member second member' same
      apply eq_of_pairwise_of_mem_iff Item.Before.asymm (regular first member).ordered
        (regular second member').ordered
      intro entry
      exact ⟨(regular first member).mem_of_factsOf_eq (regular second member') same,
        (regular second member').mem_of_factsOf_eq (regular first member) same.symm⟩
  have few : (facts grammar).card ≤
      (grammar.terminals.length + 1) * Automaton.itemCount grammar := by
    rw [facts, Finset.card_product, Finset.card_range, Nat.mul_comm, ← length_allItems]
    exact Nat.mul_le_mul_left _ (List.toFinset_card_le _)
  exact counted.trans (Nat.pow_le_pow_right (by decide) few)

/-! ### Kernels stay regular -/

theorem mem_advanceOver {grammar : Grammar α} {items : ItemSet} {symbol : Symbol} {item : Item}
    {lookaheads : TerminalSet} :
    (item, lookaheads) ∈ items.advanceOver grammar symbol ↔
      ∃ before, (before, lookaheads) ∈ items ∧ before.next? grammar = some symbol ∧
        item = before.advance := by
  unfold advanceOver
  rw [List.mem_filterMap]
  constructor
  · rintro ⟨⟨before, set⟩, member, advanced⟩
    dsimp only at advanced
    split at advanced
    · rename_i next
      cases advanced
      exact ⟨before, member, next, rfl⟩
    · cases advanced
  · rintro ⟨before, member, next, rfl⟩
    exact ⟨(before, lookaheads), member, if_pos next⟩

theorem mem_nextSymbols {grammar : Grammar α} {items : ItemSet} {symbol : Symbol} :
    symbol ∈ items.nextSymbols grammar ↔ ∃ entry ∈ items, entry.1.next? grammar = some symbol := by
  rw [nextSymbols, List.mem_eraseDups, List.mem_filterMap]

section Closure

variable {grammar : Grammar α} {firsts : FirstSets} {kernel : ItemSet}

/-- `$start` stands in no right-hand side, so it is never expected. -/
theorem ne_augmented_of_expected (wellFormed : grammar.WellFormed) {nonterminal : Nonterminal}
    {lookaheads : TerminalSet}
    (expected : (Predictions.compute grammar firsts kernel).get? nonterminal = some lookaheads) :
    nonterminal ≠ Nonterminal.augmented := by
  have bounded : (Predictions.compute grammar firsts kernel).Bounded
      (fun other => other ≠ Nonterminal.augmented) (fun _ _ => True) := by
    apply Predictions.compute_bounded
    · intro entry _ other rest after
      have member : Symbol.nonterminal other ∈ grammar.right entry.1.rule := by
        apply List.mem_of_mem_drop (i := entry.1.marker)
        rw [after]
        exact List.mem_cons_self
      exact ⟨(wellFormed.usable_of_mem_right_number member).1, fun _ _ => trivial⟩
    · intro number rule known _ _ _ other rest right
      have member : Symbol.nonterminal other ∈ rule.right := by
        rw [right]
        exact List.mem_cons_self
      exact ⟨(wellFormed.usable_of_mem_right known member).1, fun _ _ => trivial⟩
  exact (bounded nonterminal lookaheads expected).1

/-- The part of a closure that one rule contributes. -/
private def rulePart (predictions : Predictions) (kernel : ItemSet) (numbered : Rule α × RuleId) :
    ItemSet :=
  (predictions.startItem? numbered).toList ++
    kernel.filter fun entry => entry.1.rule == numbered.2

private theorem rule_of_mem_rulePart {predictions : Predictions} {numbered : Rule α × RuleId}
    {entry : Item × TerminalSet} (member : entry ∈ rulePart predictions kernel numbered) :
    entry.1.rule = numbered.2 := by
  rcases List.mem_append.mp member with start | inKernel
  · rw [(Predictions.startItem?_eq_some.mp (Option.mem_toList.mp start)).1]
  · exact eq_of_beq (List.mem_filter.mp inKernel).2

private theorem Regular.rulePart_ordered (regular : kernel.Regular grammar)
    (wellFormed : grammar.WellFormed) {numbered : Rule α × RuleId}
    (member : numbered ∈ grammar.numberedRules) :
    (rulePart (Predictions.compute grammar firsts kernel) kernel numbered).Pairwise
      fun first second => first.1.Before second.1 := by
  refine List.pairwise_append.mpr ⟨?_, regular.ordered.filter _, ?_⟩
  · cases (Predictions.compute grammar firsts kernel).startItem? numbered with
    | none => exact .nil
    | some entry => exact List.pairwise_singleton _ _
  · intro start isStart entry inKernel
    obtain ⟨startEq, expected⟩ := Predictions.startItem?_eq_some.mp (Option.mem_toList.mp isStart)
    obtain ⟨inKernel, sameRule⟩ := List.mem_filter.mp inKernel
    have sameRule : entry.1.rule = numbered.2 := eq_of_beq sameRule
    right
    rw [startEq, sameRule]
    refine ⟨rfl, Nat.pos_of_ne_zero fun atStart => ?_⟩
    have augmented := regular.started entry inKernel atStart
    have known := Grammar.mem_numberedRules.mp member
    rw [← sameRule, augmented, wellFormed.rule?_augmented] at known
    apply ne_augmented_of_expected wellFormed expected
    rw [← Option.some.inj known]

theorem Regular.closure_ordered (regular : kernel.Regular grammar)
    (wellFormed : grammar.WellFormed) :
    (kernel.closure grammar firsts).Pairwise fun first second => first.1.Before second.1 := by
  change (grammar.numberedRules.flatMap
    (rulePart (Predictions.compute grammar firsts kernel) kernel)).Pairwise _
  rw [List.pairwise_flatMap]
  constructor
  · intro numbered member
    exact regular.rulePart_ordered wellFormed member
  · have ascending : grammar.numberedRules.Pairwise fun first second => first.2 < second.2 := by
      apply List.pairwise_map.mp
      rw [Grammar.numberedRules, List.zipIdx_map_snd]
      exact List.pairwise_lt_range'
    refine ascending.imp ?_
    intro first second earlier entry inFirst entry' inSecond
    left
    rw [rule_of_mem_rulePart inFirst, rule_of_mem_rulePart inSecond]
    exact earlier

theorem Regular.closure_known (regular : kernel.Regular grammar) :
    ∀ entry ∈ kernel.closure grammar firsts, ∃ rule, grammar.rule? entry.1.rule = some rule ∧
      entry.1.marker ≤ rule.right.length := by
  rintro ⟨item, lookaheads⟩ member
  obtain ⟨rule, known, ⟨atStart, _⟩ | inKernel⟩ := mem_closure.mp member
  · exact ⟨rule, known, atStart ▸ Nat.zero_le _⟩
  · exact regular.known _ inKernel

theorem Regular.closure_within (regular : kernel.Regular grammar)
    (sizedFirsts : firsts.Sized grammar) :
    ∀ entry ∈ kernel.closure grammar firsts, entry.2.Within grammar := by
  rintro ⟨item, lookaheads⟩ member
  obtain ⟨rule, _, ⟨_, expected⟩ | inKernel⟩ := mem_closure.mp member
  · exact (Predictions.Sized.compute sizedFirsts regular.within).within rule.left lookaheads expected
  · exact regular.within _ inKernel

theorem Regular.advanceOver (regular : kernel.Regular grammar) (wellFormed : grammar.WellFormed)
    (sizedFirsts : firsts.Sized grammar) (symbol : Symbol) :
    ((kernel.closure grammar firsts).advanceOver grammar symbol).Regular grammar where
  ordered := by
    refine List.Pairwise.filterMap _ ?_ (regular.closure_ordered wellFormed)
    rintro ⟨first, set⟩ ⟨second, set'⟩ before advanced isAdvanced advanced' isAdvanced'
    dsimp only at isAdvanced isAdvanced'
    split at isAdvanced
    · split at isAdvanced'
      · cases isAdvanced
        cases isAdvanced'
        rcases before with earlierRule | ⟨sameRule, earlier⟩
        · exact Or.inl earlierRule
        · exact Or.inr ⟨sameRule, Nat.succ_lt_succ earlier⟩
      · cases isAdvanced'
    · cases isAdvanced
  known := by
    rintro ⟨item, lookaheads⟩ member
    obtain ⟨before, inClosure, next, rfl⟩ := mem_advanceOver.mp member
    obtain ⟨rule, known, _⟩ := regular.closure_known _ inClosure
    refine ⟨rule, known, ?_⟩
    rw [Item.next?, Grammar.right_eq known] at next
    exact (List.getElem?_eq_some_iff.mp next).1
  within := by
    rintro ⟨item, lookaheads⟩ member
    obtain ⟨before, inClosure, _, _⟩ := mem_advanceOver.mp member
    exact regular.closure_within sizedFirsts (before, lookaheads) inClosure
  started := by
    rintro ⟨item, lookaheads⟩ member atStart
    obtain ⟨before, _, _, rfl⟩ := mem_advanceOver.mp member
    cases atStart

end Closure

theorem Regular.initialKernel {grammar : Grammar α} (wellFormed : grammar.WellFormed) :
    Exploration.initialKernel.Regular grammar where
  ordered := List.pairwise_singleton _ _
  known := by
    intro entry member
    cases List.mem_singleton.mp member
    exact ⟨_, wellFormed.rule?_augmented, Nat.zero_le _⟩
  within := by
    intro entry member terminal inSet
    cases List.mem_singleton.mp member
    rw [TerminalSet.mem_singleton.mp inSet]
    exact wellFormed.eoi_declared
  started := by
    intro entry member _
    cases List.mem_singleton.mp member
    rfl

end ItemSet

end CoolLang
