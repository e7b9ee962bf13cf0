import CoolLang.Proofs.Automaton.Cells
import CoolLang.Proofs.Automaton.ValidItem
import CoolLang.Proofs.Grammar.Following

/-!
Tables without conflicts, from the rules alone. Two items keep company if some state may have both. A
relation that holds of the first item and is kept when an item enters a rule and when both items read a
symbol holds of any two items of a state (`Grammar.Company`), and the lookaheads of an item are among
what follows its nonterminal. So no cell has two values if of two items in company at most one acts
before a terminal that follows a complete one (`ParseTable.isLR1_of_company`).
-/

namespace CoolLang

variable {α : Type} {grammar : Grammar α}

/-- A relation between items that holds of any two items of a state. -/
structure Grammar.Company (grammar : Grammar α) (beside : Item → Item → Prop) : Prop where
  start : beside ⟨RuleId.augmented, 0⟩ ⟨RuleId.augmented, 0⟩
  enter_left : ∀ {item other : Item} {number : RuleId} {rule : Rule α}, beside item other →
    item.next? grammar = some (.nonterminal rule.left) → grammar.rule? number = some rule →
      beside ⟨number, 0⟩ other
  enter_right : ∀ {item other : Item} {number : RuleId} {rule : Rule α}, beside item other →
    other.next? grammar = some (.nonterminal rule.left) → grammar.rule? number = some rule →
      beside item ⟨number, 0⟩
  read : ∀ {item other : Item} {symbol : Symbol}, beside item other →
    item.next? grammar = some symbol → other.next? grammar = some symbol →
      beside item.advance other.advance

namespace ItemSet

variable {beside : Item → Item → Prop} {kernel items : ItemSet}

def Together (beside : Item → Item → Prop) (items : ItemSet) : Prop :=
  ∀ entry ∈ items, ∀ other ∈ items, beside entry.1 other.1

/-- What enters a rule from a closure: an item of the kernel, or the start of a rule that was itself
entered. -/
private theorem entered (firsts : FirstSets) {property : Item → Prop}
    (enter : ∀ {item number rule}, property item →
      item.next? grammar = some (.nonterminal rule.left) → grammar.rule? number = some rule →
        property ⟨number, 0⟩)
    (known : ∀ entry ∈ kernel, property entry.1) :
    ∀ entry ∈ kernel.closure grammar firsts, property entry.1 := by
  have bounded : (Predictions.compute grammar firsts kernel).Bounded
      (fun nonterminal => ∀ number rule, grammar.rule? number = some rule →
        rule.left = nonterminal → property ⟨number, 0⟩)
      (fun _ _ => True) := by
    apply Predictions.compute_bounded
    · intro entry member nonterminal rest after
      refine ⟨?_, fun _ _ => trivial⟩
      rintro number rule isRule rfl
      exact enter (known entry member) (Item.next?_of_drop after) isRule
    · intro outer outerRule isOuter expected lookaheads _ nonterminal rest right
      refine ⟨?_, fun _ _ => trivial⟩
      rintro number rule isRule rfl
      have after : (grammar.right outer).drop 0 = .nonterminal rule.left :: rest := by
        rw [Grammar.right_eq isOuter, List.drop_zero]
        exact right
      exact enter (expected outer outerRule isOuter rfl) (Item.next?_of_drop after) isRule
  rintro ⟨⟨number, marker⟩, lookaheads⟩ member
  obtain ⟨rule, isRule, ⟨rfl, expected⟩ | inKernel⟩ := mem_closure.mp member
  · exact (bounded rule.left lookaheads expected).1 number rule isRule rfl
  · exact known _ inKernel

theorem Together.closure (together : Together beside kernel) (company : grammar.Company beside)
    (firsts : FirstSets) : Together beside (kernel.closure grammar firsts) := by
  -- first what keeps company with the kernel, then what keeps company with all of that
  have besideKernel : ∀ entry ∈ kernel, ∀ other ∈ kernel.closure grammar firsts,
      beside entry.1 other.1 := by
    intro entry member
    exact entered firsts (fun kept => company.enter_right kept) (together entry member)
  intro entry member other inClosure
  have expected : ∀ entry ∈ kernel, beside entry.1 other.1 := fun entry member =>
    besideKernel entry member other inClosure
  exact entered firsts (fun kept => company.enter_left kept) expected entry member

theorem Together.advanceOver (together : Together beside items) (company : grammar.Company beside)
    (symbol : Symbol) : Together beside (items.advanceOver grammar symbol) := by
  rintro ⟨item, lookaheads⟩ member ⟨other, lookaheads'⟩ member'
  obtain ⟨before, inItems, next, rfl⟩ := mem_advanceOver.mp member
  obtain ⟨before', inItems', next', rfl⟩ := mem_advanceOver.mp member'
  exact company.read (together _ inItems _ inItems') next next'

/-! ### Lookaheads follow -/

def LookaheadsFollow (grammar : Grammar α) (items : ItemSet) : Prop :=
  ∀ entry ∈ items, ∀ rule, grammar.rule? entry.1.rule = some rule →
    ∀ terminal ∈ entry.2, grammar.Follows terminal rule.left

private theorem follows_of_ofStringThen {firsts : FirstSets} (sound : firsts.Sound grammar)
    {nonterminal left : Nonterminal} {rest : List Symbol}
    (occurs : grammar.Occurs nonterminal left rest) {lookaheads : TerminalSet}
    (known : ∀ terminal ∈ lookaheads, grammar.Follows terminal left) :
    ∀ terminal ∈ firsts.ofStringThen rest lookaheads, grammar.Follows terminal nonterminal := by
  intro terminal member
  obtain ⟨beginning, ending⟩ := sound.ofString rest
  rcases FirstSets.mem_ofStringThen.mp member with inRest | ⟨empty, inLookaheads⟩
  · exact .begins occurs (beginning terminal inRest)
  · exact .inherits occurs (ending empty) (known terminal inLookaheads)

theorem LookaheadsFollow.closure (follow : LookaheadsFollow grammar kernel)
    {firsts : FirstSets} (sound : firsts.Sound grammar) :
    LookaheadsFollow grammar (kernel.closure grammar firsts) := by
  have bounded : (Predictions.compute grammar firsts kernel).Bounded (fun _ => True)
      (fun nonterminal terminal => grammar.Follows terminal nonterminal) := by
    apply Predictions.compute_bounded
    · intro entry member nonterminal rest after
      cases known : grammar.rule? entry.1.rule with
      | none =>
          rw [Grammar.right, known, Option.elim_none, List.drop_nil] at after
          cases after
      | some rule =>
          have occurs : grammar.Occurs nonterminal rule.left rest := by
            rw [Grammar.right_eq known] at after
            refine ⟨entry.1.rule, rule, rule.right.take entry.1.marker, known, rfl, ?_⟩
            rw [← after, List.take_append_drop]
          exact ⟨trivial, follows_of_ofStringThen sound occurs (follow entry member rule known)⟩
    · intro number rule known _ lookaheads follows nonterminal rest right
      exact ⟨trivial, follows_of_ofStringThen sound ⟨number, rule, [], known, rfl, right⟩ follows⟩
  rintro ⟨⟨number, marker⟩, lookaheads⟩ member rule known
  obtain ⟨rule', known', ⟨_, expected⟩ | inKernel⟩ := mem_closure.mp member
  · rw [known] at known'
    cases known'
    exact (bounded rule.left lookaheads expected).2
  · exact follow _ inKernel rule known

theorem LookaheadsFollow.advanceOver (follow : LookaheadsFollow grammar items) (symbol : Symbol) :
    LookaheadsFollow grammar (items.advanceOver grammar symbol) := by
  rintro ⟨item, lookaheads⟩ member rule known
  obtain ⟨before, inItems, _, rfl⟩ := mem_advanceOver.mp member
  exact follow _ inItems rule known

end ItemSet

/-! ### States -/

section States

variable {number : StateId} {state : State}

theorem Grammar.Company.together {beside : Item → Item → Prop} (company : grammar.Company beside)
    (wellFormed : grammar.WellFormed) (found : grammar.automaton.states[number]? = some state) :
    ItemSet.Together beside state.items := by
  apply wellFormed.items_property _ _ _ found
  · intro entry member other member'
    cases List.mem_singleton.mp member
    cases List.mem_singleton.mp member'
    exact company.start
  · exact fun kernel together => together.closure company _
  · exact fun items symbol together => together.advanceOver company symbol

theorem Automaton.lookaheads_follow (wellFormed : grammar.WellFormed)
    (found : grammar.automaton.states[number]? = some state) :
    ItemSet.LookaheadsFollow grammar state.items := by
  apply wellFormed.items_property _ _ _ found
  · intro entry member rule known terminal inSet
    cases List.mem_singleton.mp member
    rw [wellFormed.rule?_augmented] at known
    cases known
    exact .start (TerminalSet.mem_singleton.mp inSet)
  · exact fun kernel follow => follow.closure (FirstSets.compute_sound grammar)
  · exact fun items symbol follow => follow.advanceOver symbol

end States

/-! ### Conflicts -/

/-- Whether an item can act before a terminal: it has it after its marker, or it is complete and the
terminal follows its nonterminal. -/
inductive Item.Acts (grammar : Grammar α) (terminal : Terminal) : Item → Prop where
  | shift {item : Item} (isNext : item.next? grammar = some (.terminal terminal)) :
      Acts grammar terminal item
  | complete {number : RuleId} {rule : Rule α} (known : grammar.rule? number = some rule)
      (follows : grammar.Follows terminal rule.left) :
      Acts grammar terminal ⟨number, rule.right.length⟩

/-- Whether next to a complete item no other one acts before a terminal that follows its nonterminal. -/
def Grammar.Decided (grammar : Grammar α) (beside : Item → Item → Prop) : Prop :=
  ∀ number rule, grammar.rule? number = some rule → ∀ other terminal,
    beside ⟨number, rule.right.length⟩ other → grammar.Follows terminal rule.left →
      other.Acts grammar terminal → other = ⟨number, rule.right.length⟩

private theorem length_le_one_of_nodup {β : Type} {values : List β} (unrepeated : values.Nodup)
    (agree : ∀ value ∈ values, ∀ other ∈ values, value = other) : values.length ≤ 1 := by
  match values, unrepeated, agree with
  | [], _, _ => exact Nat.zero_le 1
  | [_], _, _ => exact Nat.le_refl 1
  | first :: second :: _, unrepeated, agree =>
      have same := agree first List.mem_cons_self second (List.mem_cons_of_mem first List.mem_cons_self)
      rw [same] at unrepeated
      simp at unrepeated

namespace ParseTable

section Prescriptions

variable {source : State} {entry other : Item × TerminalSet} {terminal : Terminal}
  {action action' : TableAction} {rule : Rule α}

private theorem Prescribes.shifts_or_complete (wellFormed : grammar.WellFormed)
    (prescribes : Prescribes grammar source entry terminal action)
    (known : grammar.rule? entry.1.rule = some rule)
    (follow : ∀ terminal ∈ entry.2, grammar.Follows terminal rule.left) :
    entry.1.next? grammar = some (.terminal terminal) ∧
        (∃ next, action = .shift next ∧ source.transition? (.terminal terminal) = some next) ∨
      entry.1 = ⟨entry.1.rule, rule.right.length⟩ ∧ grammar.Follows terminal rule.left := by
  have atEnd (complete : entry.1.marker = (grammar.right entry.1.rule).length) :
      entry.1 = ⟨entry.1.rule, rule.right.length⟩ := by
    rw [← Grammar.right_eq known, ← complete]
  cases prescribes with
  | shift isNext leads => exact Or.inl ⟨isNext, _, rfl, leads⟩
  | reduce complete _ allowed => exact Or.inr ⟨atEnd complete, follow terminal allowed⟩
  | accept complete augmented =>
      refine Or.inr ⟨atEnd complete, ?_⟩
      rw [augmented, wellFormed.rule?_augmented] at known
      cases known
      exact .start rfl

private theorem Prescribes.acts (wellFormed : grammar.WellFormed)
    (prescribes : Prescribes grammar source entry terminal action)
    (known : grammar.rule? entry.1.rule = some rule)
    (follow : ∀ terminal ∈ entry.2, grammar.Follows terminal rule.left) :
    entry.1.Acts grammar terminal := by
  rcases prescribes.shifts_or_complete wellFormed known follow with ⟨isNext, _⟩ | ⟨complete, follows⟩
  · exact .shift isNext
  · rw [complete]
    exact .complete known follows

private theorem Prescribes.agree (wellFormed : grammar.WellFormed) {beside : Item → Item → Prop}
    (company : grammar.Company beside) (decided : grammar.Decided beside) {state : StateId}
    (found : grammar.automaton.states[state]? = some source) (member : entry ∈ source.items)
    (member' : other ∈ source.items) (prescribes : Prescribes grammar source entry terminal action)
    (prescribes' : Prescribes grammar source other terminal action') : action = action' := by
  have canonical := wellFormed.canonical
  have together := company.together wellFormed found
  have follow := Automaton.lookaheads_follow wellFormed found
  have known (entry) (member : entry ∈ source.items) :
      ∃ rule, grammar.rule? entry.1.rule = some rule := by
    rw [canonical.items_eq state source found] at member
    obtain ⟨rule, isRule, _⟩ := (canonical.regular state source found).closure_known entry member
    exact ⟨rule, isRule⟩
  obtain ⟨rule, isRule⟩ := known entry member
  obtain ⟨rule', isRule'⟩ := known other member'
  have acts := prescribes.acts wellFormed isRule (follow entry member rule isRule)
  have acts' := prescribes'.acts wellFormed isRule' (follow other member' rule' isRule')
  have same (equal : entry.1 = other.1) : action = action' := by
    obtain ⟨item, lookaheads⟩ := entry
    obtain ⟨item', lookaheads'⟩ := other
    cases equal
    have ordered := canonical.items_ordered wellFormed found
    cases ItemSet.lookaheads_unique ordered member member'
    exact prescribes.unique prescribes'
  -- two shifts lead to the same state, and a complete item is the only one that acts
  rcases prescribes.shifts_or_complete wellFormed isRule (follow entry member rule isRule) with
    ⟨_, next, rfl, leads⟩ | ⟨complete, follows⟩
  · rcases prescribes'.shifts_or_complete wellFormed isRule' (follow other member' rule' isRule') with
      ⟨_, next', rfl, leads'⟩ | ⟨complete', follows'⟩
    · rw [Option.some.inj (leads.symm.trans leads')]
    · have beside := together other member' entry member
      rw [complete'] at beside
      exact same ((decided _ _ isRule' _ _ beside follows' acts).trans complete'.symm)
  · have beside := together entry member other member'
    rw [complete] at beside
    exact same (complete.trans (decided _ _ isRule _ _ beside follows acts').symm)

end Prescriptions

/-- If of two items in company at most one acts before a terminal that follows a complete one, then the
table is free of conflicts. -/
theorem isLR1_of_company (wellFormed : grammar.WellFormed) {beside : Item → Item → Prop}
    (company : grammar.Company beside) (decided : grammar.Decided beside) :
    (generate grammar).isLR1 = true := by
  have canonical := wellFormed.canonical
  refine (isLR1_iff canonical).mpr ?_
  intro state terminal
  cases found : grammar.automaton.states[state]? with
  | none => simp [actionCell, ofAutomaton, found, TableRow.cell_nil]
  | some source =>
      have unrepeated : ((ofAutomaton grammar grammar.automaton).actionCell state terminal).Nodup := by
        rw [actionCell_ofAutomaton found]
        exact (actionRow_regular source).nodup_cell terminal
      have agree : ∀ action ∈ (ofAutomaton grammar grammar.automaton).actionCell state terminal,
          ∀ action' ∈ (ofAutomaton grammar grammar.automaton).actionCell state terminal,
            action = action' := by
        intro action inCell action' inCell'
        obtain ⟨entry, member, prescribes⟩ := (mem_actionCell canonical found).mp inCell
        obtain ⟨other, member', prescribes'⟩ := (mem_actionCell canonical found).mp inCell'
        exact prescribes.agree wellFormed company decided found member member' prescribes'
      change ((ofAutomaton grammar grammar.automaton).actionCell state terminal).length ≤ 1
      exact length_le_one_of_nodup unrepeated agree

end ParseTable

end CoolLang
