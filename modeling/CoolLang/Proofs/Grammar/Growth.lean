import CoolLang.Proofs.Grammar.FirstDerives
import CoolLang.Proofs.Grammar.Follow

/-!
Rounds only ever add. A round of FIRST or FOLLOW keeps every element of every set, and it reports growth
exactly if a set has gained an element (`FirstSets.Gains`, `FollowSets.Gains`). The first round without
growth is therefore the last change, and there are at most as many rounds with growth as there are places
for elements (`Grammar.rounds_converge`).
-/

namespace CoolLang

variable {α β ι : Type}

/-! ### Finding and gaining -/

/-- Whether all that was found in a place is still found there, and no less of it. -/
def KeepsAll (below : β → β → Prop) (before after : ι → Option β) : Prop :=
  ∀ place value, before place = some value → ∃ larger, after place = some larger ∧ below value larger

/-- Whether there is a place that has gained something. -/
def GainsSome (gains : β → β → Prop) (before after : ι → Option β) : Prop :=
  ∃ place value larger, before place = some value ∧ after place = some larger ∧ gains value larger

namespace TerminalSet

/-- Whether the later set has a member that the earlier one did not have. -/
def Gains (before after : TerminalSet) : Prop :=
  ∃ terminal ∈ after, terminal ∉ before

theorem Included.ne_iff {before after : TerminalSet} (included : before.Included after) :
    after ≠ before ↔ before.Gains after := by
  constructor
  · intro different
    by_contra nothing
    apply different
    refine Included.antisymm ?_ included
    intro terminal member
    by_contra missing
    exact nothing ⟨terminal, member, missing⟩
  · rintro ⟨terminal, member, missing⟩ rfl
    exact missing member

end TerminalSet

namespace FirstSet

/-- Whether the later set has a terminal or the mark of the empty string that the earlier one did not
have. -/
def Gains (before after : FirstSet) : Prop :=
  before.terminals.Gains after.terminals ∨ after.epsilon = true ∧ before.epsilon = false

theorem Included.ne_iff {before after : FirstSet} (included : before.Included after) :
    after ≠ before ↔ before.Gains after := by
  obtain ⟨terminals, epsilon⟩ := before
  obtain ⟨terminals', epsilon'⟩ := after
  have ofTerminals := included.1.ne_iff
  have ofEpsilon : epsilon' ≠ epsilon ↔ epsilon' = true ∧ epsilon = false := by
    have kept := included.2
    cases epsilon <;> cases epsilon' <;> simp_all
  rw [Gains, ← ofTerminals, ← ofEpsilon, ne_eq, mk.injEq, not_and_or]

end FirstSet

section Lists

variable {below gains : β → β → Prop} {before after : List β}

theorem keepsAll_of_forall₂ (pairwise : List.Forall₂ below before after) :
    KeepsAll below (fun place : Nat => before[place]?) (fun place : Nat => after[place]?) := by
  intro place value found
  obtain ⟨inRange, rfl⟩ := List.getElem?_eq_some_iff.mp found
  have inRange' : place < after.length := pairwise.length_eq ▸ inRange
  exact ⟨_, List.getElem?_eq_getElem inRange', pairwise.get inRange inRange'⟩

/-- Lists differ where one entry does. -/
theorem ne_iff_gainsSome (exact : ∀ {value larger}, below value larger → (larger ≠ value ↔ gains value larger))
    (pairwise : List.Forall₂ below before after) :
    after ≠ before ↔ GainsSome gains (fun place : Nat => before[place]?) (fun place : Nat => after[place]?) := by
  have keeps := keepsAll_of_forall₂ pairwise
  constructor
  · intro different
    by_contra nothing
    apply different
    apply List.ext_getElem pairwise.length_eq.symm
    intro place inAfter inBefore
    have found := List.getElem?_eq_getElem inBefore
    obtain ⟨larger, found', lower⟩ := keeps place _ found
    obtain rfl : larger = after[place] :=
      (Option.some.inj ((List.getElem?_eq_getElem inAfter).symm.trans found')).symm
    by_contra apart
    exact nothing ⟨place, _, _, found, found', (exact lower).mp apart⟩
  · rintro ⟨place, value, larger, found, found', gained⟩ rfl
    obtain ⟨same, found'', lower⟩ := keeps place value found
    obtain rfl : larger = value := Option.some.inj (found'.symm.trans found)
    obtain rfl : same = larger := Option.some.inj (found''.symm.trans found)
    exact (exact lower).mpr gained rfl

end Lists

/-! ### Stages -/

namespace FirstSets

/-- What a rule has contributed so far. -/
def ofRule? (sets : FirstSets) (rule : RuleId) : Option FirstSet :=
  sets.rules[rule]?

/-- Whether every set of a symbol and of a rule has kept its elements. -/
structure Keeps (before after : FirstSets) : Prop where
  symbols : KeepsAll FirstSet.Included before.ofSymbol? after.ofSymbol?
  rules : KeepsAll FirstSet.Included before.ofRule? after.ofRule?

/-- Whether some set of a symbol or of a rule has gained an element. -/
def Gains (before after : FirstSets) : Prop :=
  GainsSome FirstSet.Gains before.ofSymbol? after.ofSymbol? ∨
    GainsSome FirstSet.Gains before.ofRule? after.ofRule?

variable {before after : FirstSets}

theorem Included.keeps (included : before.Included after) : before.Keeps after where
  symbols := by
    intro symbol set found
    cases symbol with
    | terminal terminal =>
        refine ⟨set, ?_, .refl set⟩
        rwa [ofSymbol?, ← included.terminalCount]
    | nonterminal nonterminal => exact keepsAll_of_forall₂ included.nonterminals nonterminal set found
  rules := keepsAll_of_forall₂ included.rules

/-- What the set of a symbol gains, that of a nonterminal does: the sets of terminals stay as they are. -/
theorem Included.gains_symbols_iff (included : before.Included after) :
    GainsSome FirstSet.Gains before.ofSymbol? after.ofSymbol? ↔
      GainsSome FirstSet.Gains (fun place : Nat => before.nonterminals[place]?)
        (fun place : Nat => after.nonterminals[place]?) := by
  constructor
  · rintro ⟨_ | nonterminal, set, larger, found, found', gained⟩
    · rw [ofSymbol?, ← included.terminalCount] at found'
      obtain rfl : set = larger := Option.some.inj (found.symm.trans found')
      exact absurd rfl ((FirstSet.Included.refl set).ne_iff.mpr gained)
    · exact ⟨nonterminal, set, larger, found, found', gained⟩
  · rintro ⟨nonterminal, set, larger, found, found', gained⟩
    exact ⟨.nonterminal nonterminal, set, larger, found, found', gained⟩

theorem Included.ne_iff (included : before.Included after) : after ≠ before ↔ before.Gains after := by
  have ofRules : after.rules ≠ before.rules ↔ GainsSome FirstSet.Gains before.ofRule? after.ofRule? :=
    ne_iff_gainsSome FirstSet.Included.ne_iff included.rules
  rw [Gains, included.gains_symbols_iff, ← ne_iff_gainsSome FirstSet.Included.ne_iff included.nonterminals,
    ← ofRules, ← not_and_or, not_iff_not]
  have counted := included.terminalCount
  obtain ⟨count, nonterminals, rules⟩ := before
  obtain ⟨count', nonterminals', rules'⟩ := after
  simp only at counted
  simp [counted]

end FirstSets

namespace FollowSets

def Keeps (before after : FollowSets) : Prop :=
  KeepsAll TerminalSet.Included before.get? after.get?

def Gains (before after : FollowSets) : Prop :=
  GainsSome TerminalSet.Gains before.get? after.get?

theorem Included.ne_iff {before after : FollowSets} (included : before.Included after) :
    after ≠ before ↔ before.Gains after := by
  obtain ⟨sets⟩ := before
  obtain ⟨sets'⟩ := after
  have differ : (⟨sets'⟩ : FollowSets) ≠ ⟨sets⟩ ↔ sets' ≠ sets := by simp
  exact differ.trans (ne_iff_gainsSome TerminalSet.Included.ne_iff included)

end FollowSets

/-! ### Runs of rounds -/

section Runs

variable {round : β → β × Bool} {first last : β}

theorem stage_succ_left (round : β → β × Bool) (first : β) (rounds : Nat) :
    stage round first (rounds + 1) = stage round (round first).1 rounds := by
  induction rounds with
  | zero => rfl
  | succ rounds ih => rw [stage, ih, stage]

/-- A fixed point is what all rounds leave. -/
theorem stage_of_still (still : round first = (first, false)) (rounds : Nat) : stage round first rounds = first := by
  induction rounds with
  | zero => rfl
  | succ rounds ih => rw [stage, ih, still]

/-- The loop ends with the first round that reports no growth, and later rounds report none. -/
theorem Repeats.reportsGrowth_eq (idle : ∀ value next, round value = (next, false) → next = value) {count : Nat}
    (repeats : Repeats round count first last) (rounds : Nat) :
    stage round first count = last ∧ reportsGrowth round first rounds = decide (rounds < count) := by
  induction repeats generalizing rounds with
  | @stop first last still =>
      obtain rfl := idle first last still
      refine ⟨rfl, ?_⟩
      rw [reportsGrowth, stage_of_still still, still, decide_eq_false (Nat.not_lt_zero rounds)]
  | @again count first next last grown _ ih =>
      rw [stage_succ_left, grown]
      refine ⟨(ih 0).1, ?_⟩
      cases rounds with
      | zero => rw [reportsGrowth, stage, grown, decide_eq_true (Nat.succ_pos count)]
      | succ rounds =>
          rw [reportsGrowth, stage_succ_left, grown]
          exact (ih rounds).2.trans (by simp only [Nat.succ_lt_succ_iff])

theorem countP_range_lt (count rounds : Nat) :
    (List.range rounds).countP (fun round => decide (round < count)) = min rounds count := by
  induction rounds with
  | zero => rw [Nat.zero_min]; rfl
  | succ rounds ih =>
      rw [List.range_succ, List.countP_append, ih, List.countP_singleton]
      by_cases early : rounds < count
      · rw [if_pos (decide_eq_true early)]
        omega
      · rw [if_neg (by simpa using early)]
        omega

end Runs

/-- What can be said of rounds that only ever add. -/
structure Converges (round : β → β × Bool) (first : β) (keeps gains : β → β → Prop) (limit : Nat) : Prop where
  keeps : ∀ rounds, keeps (stage round first rounds) (stage round first (rounds + 1))
  exact : ∀ rounds, reportsGrowth round first rounds = true ↔
    gains (stage round first rounds) (stage round first (rounds + 1))
  final : ∀ rounds later, rounds ≤ later → reportsGrowth round first rounds = false →
    reportsGrowth round first later = false
  few : ∀ rounds, (List.range rounds).countP (reportsGrowth round first) ≤ limit

/-- Rounds that report exactly whether they change anything, and that saturate, converge. -/
theorem converges_of_fixed [DecidableEq β] {round : β → β} {report : β → β × Bool}
    (exact : ∀ value, report value = (round value, decide (round value ≠ value))) {keeps gains : β → β → Prop}
    (kept : ∀ value, keeps value (round value)) (gained : ∀ value, round value ≠ value ↔ gains value (round value))
    {limit : Nat} {first : β} (fixed : round (saturate round limit first) = saturate round limit first) :
    Converges report first keeps gains limit := by
  obtain ⟨count, few, repeats⟩ := exists_repeats exact fixed
  have idle (value next : β) (still : report value = (next, false)) : next = value := by
    rw [exact, Prod.mk.injEq, decide_eq_false_iff_not, not_not] at still
    rw [← still.1, still.2]
  have early (rounds : Nat) : reportsGrowth report first rounds = decide (rounds < count) :=
    (repeats.reportsGrowth_eq idle rounds).2
  constructor
  · intro rounds
    rw [stage, exact]
    exact kept _
  · intro rounds
    rw [reportsGrowth, stage, exact, decide_eq_true_iff]
    exact gained _
  · intro rounds later after none
    rw [early, decide_eq_false_iff_not] at none ⊢
    omega
  · intro rounds
    rw [funext early, countP_range_lt]
    omega

namespace Grammar

variable {grammar : Grammar α}

theorem length_symbols (grammar : Grammar α) :
    grammar.symbols.length = grammar.terminals.length + grammar.nonterminals.length := by
  rw [symbols, List.length_append, List.length_map, List.length_map, List.length_range, List.length_range]

theorem sized_stage (grammar : Grammar α) (rounds : Nat) :
    (stage (FirstSets.reportRound grammar) (.initial grammar) rounds).Sized grammar := by
  induction rounds with
  | zero => exact .initial grammar
  | succ rounds ih =>
      rw [stage, FirstSets.reportRound_eq]
      exact ih.propagate

/-- A round of FIRST, at whatever stage, keeps every element of every set and reports growth exactly if the
set of a symbol or of a rule has gained an element. So does a round of FOLLOW, whatever stage of FIRST it
reads; the computed sets are one such stage. After a round without growth there is none with growth, and
rounds with growth are at most as many as there are symbols and rules times elements of a FIRST set, or
nonterminals times terminals. -/
theorem rounds_converge {declarations : List (Declaration α)}
    (accepted : Grammar.ofDeclarations declarations = .ok grammar) :
    Converges (FirstSets.reportRound grammar) (.initial grammar) FirstSets.Keeps FirstSets.Gains
        ((grammar.symbols.length + grammar.rules.length) * (grammar.terminals.length + 1)) ∧
      (∃ rounds, stage (FirstSets.reportRound grammar) (.initial grammar) rounds = .compute grammar) ∧
      ∀ rounds, Converges
        (FollowSets.reportRound grammar (stage (FirstSets.reportRound grammar) (.initial grammar) rounds))
        (.initial grammar) FollowSets.Keeps FollowSets.Gains
        (grammar.nonterminals.length * grammar.terminals.length) := by
  have wellFormed := Grammar.wellFormed_of_declarations accepted
  refine ⟨?_, ?_, fun rounds => ?_⟩
  · rw [length_symbols]
    exact converges_of_fixed (FirstSets.reportRound_eq grammar)
      (fun sets => (FirstSets.included_propagate grammar sets).keeps)
      (fun sets => (FirstSets.included_propagate grammar sets).ne_iff) (FirstSets.propagate_compute grammar)
  · obtain ⟨count, _, repeats⟩ :=
      exists_repeats (FirstSets.reportRound_eq grammar) (FirstSets.propagate_compute grammar)
    refine ⟨count, (repeats.reportsGrowth_eq ?_ 0).1⟩
    intro sets next still
    rw [FirstSets.reportRound_eq, Prod.mk.injEq, decide_eq_false_iff_not, not_not] at still
    rw [← still.1, still.2]
  · exact converges_of_fixed (FollowSets.reportRound_eq grammar _)
      (fun follow _ _ found => (FollowSets.included_propagate grammar _ follow).get? found)
      (fun follow => (FollowSets.included_propagate grammar _ follow).ne_iff)
      (FollowSets.propagate_compute wellFormed (grammar.sized_stage rounds))

theorem rounds_converge_nested :
    (FirstSets.initial nested).Gains (stage (FirstSets.reportRound nested) (.initial nested) 1) ∧
      (∀ later ≥ 2, reportsGrowth (FirstSets.reportRound nested) (.initial nested) later = false) ∧
      (List.range 50).countP
        (reportsGrowth (FollowSets.reportRound nested (.initial nested)) (.initial nested)) ≤ 2 * 3 := by
  obtain ⟨first, _, follow⟩ := rounds_converge nested_accepted
  refine ⟨(first.exact 0).mp (by decide +kernel), fun later after => ?_, (follow 0).few 50⟩
  exact first.final 2 later after (by decide +kernel)

end Grammar

end CoolLang
