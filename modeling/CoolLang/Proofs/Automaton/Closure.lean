import CoolLang.Automaton.Closure
import CoolLang.Proofs.Grammar.First

/-!
Closures are closed and least. What stands after the marker of a kernel item is expected with all that
can follow it, and so is what stands first in a rule of an expected nonterminal
(`Predictions.compute_of_kernel`, `Predictions.compute_of_rule`). Nothing else is expected and nothing
else follows (`Predictions.compute_bounded`). A closure holds the kernel's items and the items at the
start of the rules of expected nonterminals (`ItemSet.mem_closure`).
-/

namespace CoolLang

variable {α : Type}

namespace Predictions

/-! ### Order -/

/-- What is expected stays expected, and what follows it still does. -/
def IncludedAt (inner outer : Option TerminalSet) : Prop :=
  ∀ set, inner = some set → ∃ larger, outer = some larger ∧ set.Included larger

theorem IncludedAt.refl (known : Option TerminalSet) : IncludedAt known known :=
  fun set same => ⟨set, same, fun _ member => member⟩

theorem IncludedAt.trans {first second third : Option TerminalSet}
    (lower : IncludedAt first second) (upper : IncludedAt second third) :
    IncludedAt first third := by
  intro set same
  obtain ⟨larger, same', included⟩ := lower set same
  obtain ⟨largest, same'', included'⟩ := upper larger same'
  exact ⟨largest, same'', fun terminal member => included' terminal (included terminal member)⟩

theorem IncludedAt.antisymm {first second : Option TerminalSet}
    (lower : IncludedAt first second) (upper : IncludedAt second first) : first = second := by
  cases first with
  | none =>
      cases second with
      | none => rfl
      | some set => obtain ⟨_, impossible, _⟩ := upper set rfl; cases impossible
  | some set =>
      obtain ⟨set', rfl, included⟩ := lower set rfl
      obtain ⟨larger, same, included'⟩ := upper set' rfl
      cases same
      congr 1
      ext terminal
      exact ⟨included terminal, included' terminal⟩

def Included (inner outer : Predictions) : Prop :=
  List.Forall₂ IncludedAt inner outer

theorem Included.refl (predictions : Predictions) : Included predictions predictions :=
  List.forall₂_same.mpr fun known _ => .refl known

theorem Included.trans {first second third : Predictions} (lower : Included first second)
    (upper : Included second third) : Included first third :=
  forall₂_trans .trans lower upper

theorem Included.antisymm {first second : Predictions} (lower : Included first second)
    (upper : Included second first) : first = second :=
  forall₂_antisymm IncludedAt.antisymm lower upper

theorem Included.get? {inner outer : Predictions} (included : Included inner outer)
    {nonterminal : Nonterminal} {set : TerminalSet}
    (expected : inner.get? nonterminal = some set) :
    ∃ larger, outer.get? nonterminal = some larger ∧ set.Included larger := by
  unfold Predictions.get? at expected ⊢
  cases found : inner[nonterminal]? with
  | none => rw [found] at expected; cases expected
  | some known =>
      rw [found] at expected
      obtain ⟨inRange, same⟩ := List.getElem?_eq_some_iff.mp found
      have inRange' : nonterminal < outer.length := List.Forall₂.length_eq included ▸ inRange
      have place := List.Forall₂.get included inRange inRange'
      simp only [List.get_eq_getElem, same] at place
      rw [List.getElem?_eq_getElem inRange']
      exact place set expected

theorem get?_expect {predictions : Predictions} {nonterminal : Nonterminal}
    (inRange : nonterminal < predictions.length) (lookaheads : TerminalSet) :
    (predictions.expect nonterminal lookaheads).get? nonterminal =
      some ((predictions.get? nonterminal).getD ∅ ∪ lookaheads) := by
  unfold get? expect
  rw [List.getElem?_modify_eq, List.getElem?_eq_getElem inRange]
  rfl

theorem get?_expect_of_ne {predictions : Predictions} {nonterminal other : Nonterminal}
    (different : nonterminal ≠ other) (lookaheads : TerminalSet) :
    (predictions.expect nonterminal lookaheads).get? other = predictions.get? other := by
  unfold get? expect
  rw [List.getElem?_modify]
  simp only [if_neg different]
  exact congrArg Option.join Option.map_id'

/-- A terminal that follows after an expectation was raised is among the new ones or followed before. -/
theorem mem_of_get?_expect {predictions : Predictions} {nonterminal other : Nonterminal}
    {lookaheads set : TerminalSet}
    (found : (predictions.expect nonterminal lookaheads).get? other = some set)
    {terminal : Terminal} (member : terminal ∈ set) :
    nonterminal = other ∧ terminal ∈ lookaheads ∨
      ∃ known, predictions.get? other = some known ∧ terminal ∈ known := by
  by_cases same : nonterminal = other
  · subst same
    by_cases inRange : nonterminal < predictions.length
    · rw [get?_expect inRange] at found
      cases found
      rcases TerminalSet.mem_union.mp member with old | new
      · cases before : predictions.get? nonterminal with
        | none =>
            rw [before] at old
            exact absurd old (TerminalSet.not_mem_empty terminal)
        | some known =>
            rw [before] at old
            exact Or.inr ⟨known, rfl, old⟩
      · exact Or.inl ⟨rfl, new⟩
    · have outside : (predictions.expect nonterminal lookaheads).length ≤ nonterminal := by
        rw [expect, List.length_modify]
        exact Nat.le_of_not_lt inRange
      rw [get?, List.getElem?_eq_none outside] at found
      cases found
  · rw [get?_expect_of_ne same] at found
    exact Or.inr ⟨set, found, member⟩

theorem included_expect (predictions : Predictions) (nonterminal : Nonterminal)
    (lookaheads : TerminalSet) :
    Included predictions (predictions.expect nonterminal lookaheads) := by
  refine forall₂_modify .refl ?_ predictions nonterminal
  intro known set same
  refine ⟨_, rfl, ?_⟩
  intro terminal member
  rw [TerminalSet.mem_union, same]
  exact Or.inl member

/-- The expectation that an entry raises, where a nonterminal stands after its marker. -/
theorem expectAfter_eq {grammar : Grammar α} {firsts : FirstSets} {predictions : Predictions}
    {entry : Item × TerminalSet} {nonterminal : Nonterminal} {rest : List Symbol}
    (after : (grammar.right entry.1.rule).drop entry.1.marker = .nonterminal nonterminal :: rest) :
    predictions.expectAfter grammar firsts entry =
      predictions.expect nonterminal (firsts.ofStringThen rest entry.2) := by
  simp only [expectAfter, after]

theorem included_expectAfter (grammar : Grammar α) (firsts : FirstSets)
    (predictions : Predictions) (entry : Item × TerminalSet) :
    Included predictions (predictions.expectAfter grammar firsts entry) := by
  unfold expectAfter
  split
  · exact included_expect predictions _ _
  · exact .refl predictions

/-- One rule's part of a round. -/
private def advanceRule (grammar : Grammar α) (firsts : FirstSets) (current : Predictions)
    (numbered : Rule α × RuleId) : Predictions :=
  match current.startItem? numbered with
  | some entry => current.expectAfter grammar firsts entry
  | Option.none => current

private theorem propagate_eq (grammar : Grammar α) (firsts : FirstSets)
    (predictions : Predictions) :
    predictions.propagate grammar firsts =
      grammar.numberedRules.foldl (advanceRule grammar firsts) predictions := rfl

private theorem included_advanceRule (grammar : Grammar α) (firsts : FirstSets)
    (predictions : Predictions) (numbered : Rule α × RuleId) :
    Included predictions (advanceRule grammar firsts predictions numbered) := by
  unfold advanceRule
  split
  · exact included_expectAfter grammar firsts predictions _
  · exact .refl predictions

theorem included_propagate (grammar : Grammar α) (firsts : FirstSets)
    (predictions : Predictions) :
    Included predictions (predictions.propagate grammar firsts) :=
  below_foldl .refl .trans (included_advanceRule grammar firsts) grammar.numberedRules predictions

/-! ### The last stage is a fixed point -/

structure Sized (grammar : Grammar α) (predictions : Predictions) : Prop where
  length_eq : predictions.length = grammar.nonterminals.length
  within : ∀ nonterminal set, predictions.get? nonterminal = some set → set.Within grammar

section Stages

variable {grammar : Grammar α} {firsts : FirstSets} {predictions : Predictions}

theorem Sized.expect (sized : predictions.Sized grammar) {nonterminal : Nonterminal}
    {lookaheads : TerminalSet} (within : lookaheads.Within grammar) :
    (predictions.expect nonterminal lookaheads).Sized grammar where
  length_eq := by
    rw [Predictions.expect, List.length_modify]
    exact sized.length_eq
  within := by
    intro other set found terminal member
    rcases mem_of_get?_expect found member with ⟨_, new⟩ | ⟨known, before, old⟩
    · exact within terminal new
    · exact sized.within other known before terminal old

theorem ofStringThen_within (sizedFirsts : firsts.Sized grammar) {lookaheads : TerminalSet}
    (within : lookaheads.Within grammar) (string : List Symbol) :
    (firsts.ofStringThen string lookaheads).Within grammar := by
  intro terminal member
  rcases FirstSets.mem_ofStringThen.mp member with inString | ⟨_, inLookaheads⟩
  · exact sizedFirsts.ofString_within string terminal inString
  · exact within terminal inLookaheads

theorem Sized.expectAfter (sized : predictions.Sized grammar)
    (sizedFirsts : firsts.Sized grammar) {entry : Item × TerminalSet}
    (within : entry.2.Within grammar) :
    (predictions.expectAfter grammar firsts entry).Sized grammar := by
  unfold Predictions.expectAfter
  split
  · exact sized.expect (ofStringThen_within sizedFirsts within _)
  · exact sized

theorem startItem?_eq_some {numbered : Rule α × RuleId} {entry : Item × TerminalSet} :
    predictions.startItem? numbered = some entry ↔
      entry.1 = ⟨numbered.2, 0⟩ ∧ predictions.get? numbered.1.left = some entry.2 := by
  unfold startItem?
  rw [Option.map_eq_some_iff]
  constructor
  · rintro ⟨set, found, rfl⟩
    exact ⟨rfl, found⟩
  · rintro ⟨item, found⟩
    obtain ⟨_, set⟩ := entry
    exact ⟨set, found, by rw [← item]⟩

private theorem Sized.advanceRule (sized : predictions.Sized grammar)
    (sizedFirsts : firsts.Sized grammar) (numbered : Rule α × RuleId) :
    (Predictions.advanceRule grammar firsts predictions numbered).Sized grammar := by
  unfold Predictions.advanceRule
  split
  · rename_i entry found
    exact sized.expectAfter sizedFirsts
      (sized.within numbered.1.left entry.2 (startItem?_eq_some.mp found).2)
  · exact sized

theorem Sized.propagate (sized : predictions.Sized grammar)
    (sizedFirsts : firsts.Sized grammar) :
    (predictions.propagate grammar firsts).Sized grammar :=
  foldl_preserves (fun current : Predictions => current.Sized grammar)
    (fun _ numbered _ current => current.advanceRule sizedFirsts numbered) sized

private theorem get?_none (grammar : Grammar α) (nonterminal : Nonterminal) :
    (Predictions.none grammar).get? nonterminal = Option.none := by
  unfold get? Predictions.none
  rw [List.getElem?_map]
  cases grammar.nonterminals[nonterminal]? <;> rfl

private theorem Sized.none (grammar : Grammar α) : (Predictions.none grammar).Sized grammar where
  length_eq := List.length_map _
  within := by
    intro nonterminal set found
    rw [get?_none] at found
    cases found

theorem Sized.ofKernel (sizedFirsts : firsts.Sized grammar) {kernel : ItemSet}
    (within : ∀ entry ∈ kernel, entry.2.Within grammar) :
    (Predictions.ofKernel grammar firsts kernel).Sized grammar :=
  foldl_preserves (fun current : Predictions => current.Sized grammar)
    (fun _ entry member current => current.expectAfter sizedFirsts (within entry member))
    (.none grammar)

end Stages

/-- Fact 0 about a nonterminal is that it is expected, fact `t + 1` that `t` can follow it. -/
private def holds (predictions : Predictions) (fact : Nat × Nat) : Bool :=
  match predictions.get? fact.1, fact.2 with
  | some _, 0 => true
  | some set, terminal + 1 => set.contains terminal
  | Option.none, _ => false

private theorem holds_mono {inner outer : Predictions} (included : Included inner outer)
    {fact : Nat × Nat} (held : holds inner fact = true) : holds outer fact = true := by
  obtain ⟨nonterminal, number⟩ := fact
  unfold holds at held ⊢
  cases expected : inner.get? nonterminal with
  | none => rw [expected] at held; cases held
  | some set =>
      obtain ⟨larger, expected', lower⟩ := included.get? expected
      cases number with
      | zero => rw [expected']
      | succ terminal =>
          rw [expected] at held
          rw [expected']
          exact lower terminal held

private theorem get?_included_of_facts {grammar : Grammar α} {first second : Predictions}
    (sized : first.Sized grammar)
    (agree : ∀ nonterminal < grammar.nonterminals.length,
      ∀ number < grammar.terminals.length + 1,
        holds first (nonterminal, number) = true → holds second (nonterminal, number) = true)
    {nonterminal : Nonterminal} {set : TerminalSet}
    (expected : first.get? nonterminal = some set) :
    ∃ larger, second.get? nonterminal = some larger ∧ set.Included larger := by
  have inRange : nonterminal < grammar.nonterminals.length := by
    by_contra outside
    unfold get? at expected
    rw [List.getElem?_eq_none (by rw [sized.length_eq]; exact Nat.le_of_not_lt outside)] at expected
    cases expected
  cases expected' : second.get? nonterminal with
  | none =>
      have impossible := agree nonterminal inRange 0 (Nat.succ_pos _) (by simp only [holds, expected])
      simp only [holds, expected'] at impossible
      cases impossible
  | some larger =>
      refine ⟨larger, rfl, ?_⟩
      intro terminal member
      have bounded := sized.within nonterminal set expected terminal member
      have checked := agree nonterminal inRange (terminal + 1) (Nat.succ_lt_succ bounded)
        (by simp only [holds, expected]; exact member)
      simp only [holds, expected'] at checked
      exact checked

private theorem included_of_get? {first second : Predictions} (lengths : first.length = second.length)
    (pointwise : ∀ nonterminal set, first.get? nonterminal = some set →
      ∃ larger, second.get? nonterminal = some larger ∧ set.Included larger) :
    Included first second := by
  apply List.forall₂_iff_get.mpr
  refine ⟨lengths, ?_⟩
  intro nonterminal inFirst inSecond set same
  rw [List.get_eq_getElem] at same
  obtain ⟨larger, expected, included⟩ := pointwise nonterminal set (by
    unfold get?
    rw [List.getElem?_eq_getElem inFirst, same]
    rfl)
  unfold get? at expected
  rw [List.getElem?_eq_getElem inSecond] at expected
  exact ⟨larger, expected, included⟩

private theorem determined {grammar : Grammar α} {first second : Predictions}
    (sized : first.Sized grammar) (sized' : second.Sized grammar)
    (agree : ∀ fact ∈ Finset.range grammar.nonterminals.length ×ˢ
      Finset.range (grammar.terminals.length + 1), holds first fact = holds second fact) :
    first = second := by
  have same : ∀ nonterminal < grammar.nonterminals.length,
      ∀ number < grammar.terminals.length + 1,
        holds first (nonterminal, number) = holds second (nonterminal, number) := by
    intro nonterminal inRange number bounded
    apply agree
    rw [Finset.mem_product, Finset.mem_range, Finset.mem_range]
    exact ⟨inRange, bounded⟩
  have lengths := sized.length_eq.trans sized'.length_eq.symm
  apply Included.antisymm
  · apply included_of_get? lengths
    intro nonterminal set expected
    exact get?_included_of_facts sized
      (fun nonterminal inRange number bounded held =>
        (same nonterminal inRange number bounded).symm.trans held) expected
  · apply included_of_get? lengths.symm
    intro nonterminal set expected
    exact get?_included_of_facts sized'
      (fun nonterminal inRange number bounded held =>
        (same nonterminal inRange number bounded).trans held) expected

section Computed

variable {grammar : Grammar α} {firsts : FirstSets} {kernel : ItemSet}

theorem propagate_compute (sizedFirsts : firsts.Sized grammar)
    (within : ∀ entry ∈ kernel, entry.2.Within grammar) :
    (compute grammar firsts kernel).propagate grammar firsts = compute grammar firsts kernel := by
  apply round_saturate_of_facts (propagate grammar firsts)
    (fun predictions : Predictions => predictions.Sized grammar)
    (Finset.range grammar.nonterminals.length ×ˢ Finset.range (grammar.terminals.length + 1)) holds
  · intro predictions sized
    exact sized.propagate sizedFirsts
  · intro predictions _ fact held
    exact holds_mono (included_propagate grammar firsts predictions) held
  · intro first second sized sized' agree
    exact determined sized sized' agree
  · exact .ofKernel sizedFirsts within
  · rw [Finset.card_product, Finset.card_range, Finset.card_range, roundLimit]

theorem Sized.compute (sizedFirsts : firsts.Sized grammar)
    (within : ∀ entry ∈ kernel, entry.2.Within grammar) :
    (Predictions.compute grammar firsts kernel).Sized grammar :=
  saturate_preserves _ (fun predictions : Predictions => predictions.Sized grammar)
    (fun _ sized => sized.propagate sizedFirsts) _ _ (.ofKernel sizedFirsts within)

/-! ### Closed -/

private theorem expected_of_included {predictions : Predictions} {nonterminal : Nonterminal}
    (inRange : nonterminal < predictions.length) {lookaheads : TerminalSet} {last : Predictions}
    (included : Included (predictions.expect nonterminal lookaheads) last) :
    ∃ set, last.get? nonterminal = some set ∧ lookaheads.Included set := by
  obtain ⟨set, found, lower⟩ := included.get? (get?_expect inRange lookaheads)
  exact ⟨set, found, fun terminal member =>
    lower terminal (TerminalSet.mem_union.mpr (Or.inr member))⟩

private theorem ofKernel_included_compute :
    Included (ofKernel grammar firsts kernel) (compute grammar firsts kernel) :=
  saturate_preserves _ (Included (ofKernel grammar firsts kernel))
    (fun predictions lower => lower.trans (included_propagate grammar firsts predictions)) _ _
    (.refl _)

theorem compute_of_kernel {entry : Item × TerminalSet} (member : entry ∈ kernel)
    {nonterminal : Nonterminal} (declared : nonterminal < grammar.nonterminals.length)
    {rest : List Symbol}
    (after : (grammar.right entry.1.rule).drop entry.1.marker = .nonterminal nonterminal :: rest) :
    ∃ set, (compute grammar firsts kernel).get? nonterminal = some set ∧
      (firsts.ofStringThen rest entry.2).Included set := by
  obtain ⟨current, lower, upper⟩ := foldl_passes .refl .trans
    (included_expectAfter grammar firsts) (none grammar) entry member
  rw [expectAfter_eq after] at upper
  have inRange : nonterminal < current.length := by
    rw [← List.Forall₂.length_eq lower, none, List.length_map]
    exact declared
  exact expected_of_included inRange (upper.trans ofKernel_included_compute)

theorem compute_of_rule (sizedFirsts : firsts.Sized grammar)
    (within : ∀ entry ∈ kernel, entry.2.Within grammar) {number : RuleId} {rule : Rule α}
    (known : grammar.rule? number = some rule) {lookaheads : TerminalSet}
    (expected : (compute grammar firsts kernel).get? rule.left = some lookaheads)
    {nonterminal : Nonterminal} (declared : nonterminal < grammar.nonterminals.length)
    {rest : List Symbol} (right : rule.right = .nonterminal nonterminal :: rest) :
    ∃ set, (compute grammar firsts kernel).get? nonterminal = some set ∧
      (firsts.ofStringThen rest lookaheads).Included set := by
  have unchanged := propagate_compute sizedFirsts within
  rw [propagate_eq] at unchanged
  have fixed := foldl_fixed .refl .trans Included.antisymm (included_advanceRule grammar firsts)
    unchanged (rule, number) (Grammar.mem_numberedRules.mpr known)
  have start : (compute grammar firsts kernel).startItem? (rule, number) =
      some (⟨number, 0⟩, lookaheads) := startItem?_eq_some.mpr ⟨rfl, expected⟩
  simp only [advanceRule, start] at fixed
  rw [expectAfter_eq (by rw [Grammar.right_eq known, List.drop_zero]; exact right)] at fixed
  have inRange : nonterminal < (compute grammar firsts kernel).length := by
    rw [(Sized.compute sizedFirsts within).length_eq]
    exact declared
  have upper := Included.refl (compute grammar firsts kernel)
  have lower : Included ((compute grammar firsts kernel).expect nonterminal
      (firsts.ofStringThen rest lookaheads)) (compute grammar firsts kernel) := by
    rw [fixed]
    exact upper
  exact expected_of_included inRange lower

/-! ### Least -/

/-- Only `expected` nonterminals are expected, each with terminals that `follow` it. -/
def Bounded (predictions : Predictions) (expected : Nonterminal → Prop)
    (follow : Nonterminal → Terminal → Prop) : Prop :=
  ∀ nonterminal set, predictions.get? nonterminal = some set →
    expected nonterminal ∧ ∀ terminal ∈ set, follow nonterminal terminal

variable {expected : Nonterminal → Prop} {follow : Nonterminal → Terminal → Prop}

private theorem Bounded.expectAfter {predictions : Predictions}
    (bounded : predictions.Bounded expected follow) {entry : Item × TerminalSet}
    (allowed : ∀ nonterminal rest,
      (grammar.right entry.1.rule).drop entry.1.marker = .nonterminal nonterminal :: rest →
        expected nonterminal ∧
          ∀ terminal ∈ firsts.ofStringThen rest entry.2, follow nonterminal terminal) :
    (predictions.expectAfter grammar firsts entry).Bounded expected follow := by
  unfold Predictions.expectAfter
  split
  · rename_i nonterminal rest after
    obtain ⟨isExpected, follows⟩ := allowed nonterminal rest after
    intro other set found
    constructor
    · by_cases same : nonterminal = other
      · rw [← same]
        exact isExpected
      · rw [get?_expect_of_ne same] at found
        exact (bounded other set found).1
    · intro terminal member
      rcases mem_of_get?_expect found member with ⟨rfl, new⟩ | ⟨known, before, old⟩
      · exact follows terminal new
      · exact (bounded other known before).2 terminal old
  · exact bounded

theorem compute_bounded
    (ofKernel : ∀ entry ∈ kernel, ∀ nonterminal rest,
      (grammar.right entry.1.rule).drop entry.1.marker = .nonterminal nonterminal :: rest →
        expected nonterminal ∧
          ∀ terminal ∈ firsts.ofStringThen rest entry.2, follow nonterminal terminal)
    (ofRule : ∀ number rule, grammar.rule? number = some rule → expected rule.left →
      ∀ lookaheads : TerminalSet, (∀ terminal ∈ lookaheads, follow rule.left terminal) →
        ∀ nonterminal rest, rule.right = .nonterminal nonterminal :: rest →
          expected nonterminal ∧
            ∀ terminal ∈ firsts.ofStringThen rest lookaheads, follow nonterminal terminal) :
    (compute grammar firsts kernel).Bounded expected follow := by
  apply saturate_preserves (propagate grammar firsts)
    (fun predictions : Predictions => predictions.Bounded expected follow)
  · intro predictions bounded
    rw [propagate_eq]
    apply foldl_preserves (fun current : Predictions => current.Bounded expected follow) _ bounded
    rintro current ⟨rule, number⟩ member currentBounded
    have known := Grammar.mem_numberedRules.mp member
    unfold advanceRule
    split
    · rename_i entry found
      obtain ⟨item, lookaheads⟩ := startItem?_eq_some.mp found
      obtain ⟨isExpected, follows⟩ := currentBounded rule.left entry.2 lookaheads
      apply currentBounded.expectAfter
      intro nonterminal rest after
      rw [item, Grammar.right_eq known, List.drop_zero] at after
      exact ofRule number rule known isExpected entry.2 follows nonterminal rest after
    · exact currentBounded
  · apply foldl_preserves (fun current : Predictions => current.Bounded expected follow)
    · intro current entry member currentBounded
      exact currentBounded.expectAfter (ofKernel entry member)
    · intro nonterminal set found
      rw [get?_none] at found
      cases found

end Computed

end Predictions

/-! ### Closures -/

theorem ItemSet.mem_closure {grammar : Grammar α} {firsts : FirstSets} {kernel : ItemSet}
    {item : Item} {lookaheads : TerminalSet} :
    (item, lookaheads) ∈ kernel.closure grammar firsts ↔
      ∃ rule, grammar.rule? item.rule = some rule ∧
        (item.marker = 0 ∧
            (Predictions.compute grammar firsts kernel).get? rule.left = some lookaheads ∨
          (item, lookaheads) ∈ kernel) := by
  unfold ItemSet.closure
  dsimp only
  rw [List.mem_flatMap]
  constructor
  · rintro ⟨⟨rule, number⟩, member, present⟩
    have known := Grammar.mem_numberedRules.mp member
    rcases List.mem_append.mp present with start | inKernel
    · obtain ⟨isStart, expected⟩ :=
        Predictions.startItem?_eq_some.mp (Option.mem_toList.mp start)
      cases isStart
      exact ⟨rule, known, Or.inl ⟨rfl, expected⟩⟩
    · obtain ⟨inKernel, sameRule⟩ := List.mem_filter.mp inKernel
      refine ⟨rule, ?_, Or.inr inKernel⟩
      rw [← known]
      exact congrArg _ (eq_of_beq sameRule)
  · rintro ⟨rule, known, ⟨atStart, expected⟩ | inKernel⟩
    · refine ⟨(rule, item.rule), Grammar.mem_numberedRules.mpr known, ?_⟩
      apply List.mem_append_left
      rw [Option.mem_toList]
      refine Predictions.startItem?_eq_some.mpr ⟨?_, expected⟩
      obtain ⟨number, marker⟩ := item
      cases atStart
      rfl
    · refine ⟨(rule, item.rule), Grammar.mem_numberedRules.mpr known, ?_⟩
      apply List.mem_append_right
      exact List.mem_filter.mpr ⟨inKernel, beq_self_eq_true _⟩

end CoolLang
