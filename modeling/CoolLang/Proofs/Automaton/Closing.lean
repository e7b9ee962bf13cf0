import CoolLang.Automaton.Search
import CoolLang.Proofs.Automaton.Kernel
import CoolLang.Proofs.Grammar.Rounds

/-!
Closing ends in the closure. A closure is the least of all maps from items to lookaheads that hold its kernel and what
their items predict (`ItemSet.Regular.closes`). A round of closing reports exactly whether it has changed anything
(`ItemSet.closeRound_eq`), and what it adds is in every such map; so after finitely many rounds that change something
the loop leaves the closure (`ItemSet.Regular.repeats_closure`).
-/

namespace CoolLang

variable {α : Type}

/-! ### Growing sets -/

theorem TerminalSet.eq_or_size_lt {inner outer : TerminalSet} (included : inner.Included outer) :
    inner = outer ∨ inner.size < outer.size := by
  have nodup : inner.toList.Nodup := inner.toList_pairwise_lt.imp Nat.ne_of_lt
  have listed : inner.toList.Subperm outer.toList := List.subperm_of_subset nodup fun terminal member =>
    mem_toList.mpr (included terminal (mem_toList.mp member))
  rcases Nat.eq_or_lt_of_le listed.length_le with same | smaller
  · exact Or.inl (eq_of_size_eq included same.symm).symm
  · exact Or.inr smaller

theorem TerminalSet.Included.union {set other : TerminalSet} : set.Included (set ∪ other) :=
  fun _ member => mem_union.mpr (Or.inl member)

/-- What follows the string is what can begin it, and the lookaheads where it can be empty. -/
theorem FirstSets.ofStringThen_mono (firsts : FirstSets) (string : List Symbol) {inner outer : TerminalSet}
    (included : inner.Included outer) :
    (firsts.ofStringThen string inner).Included (firsts.ofStringThen string outer) := by
  intro terminal member
  rw [mem_ofStringThen] at member ⊢
  exact member.imp_right fun both => ⟨both.1, included terminal both.2⟩

namespace ItemSet

variable {grammar : Grammar α} {firsts : FirstSets} {before after items kernel : ItemSet}

/-! ### Growing item sets -/

/-- `Grown before after`: there are more items, and more lookaheads of those that there were. -/
abbrev Grown : ItemSet → ItemSet → Prop :=
  List.SublistForall₂ fun entry larger => entry.1 = larger.1 ∧ entry.2.Included larger.2

theorem Grown.refl (items : ItemSet) : Grown items items := by
  induction items with
  | nil => exact .nil
  | cons entry items ih => exact .cons ⟨rfl, fun _ member => member⟩ ih

theorem Grown.trans {first second third : ItemSet} (lower : Grown first second) (upper : Grown second third) :
    Grown first third := by
  induction upper generalizing first with
  | nil => cases lower; exact .nil
  | cons included _ ih =>
      cases lower with
      | nil => exact .nil
      | cons included' lower =>
          exact .cons ⟨included'.1.trans included.1, fun terminal member =>
            included.2 terminal (included'.2 terminal member)⟩ (ih lower)
      | cons_right lower => exact .cons_right (ih lower)
  | cons_right _ ih => exact .cons_right (ih lower)

/-- The number of items and lookaheads. -/
def weight : List (Item × TerminalSet) → Nat
  | [] => 0
  | entry :: items => entry.2.size + 1 + weight items

theorem Grown.eq_or_weight_lt (grown : Grown before after) : before = after ∨ weight before < weight after := by
  induction grown with
  | @nil items =>
      cases items with
      | nil => exact Or.inl rfl
      | cons entry items =>
          right
          simp only [weight]
          omega
  | @cons entry larger before after included _ ih =>
      obtain ⟨item, set⟩ := entry
      obtain ⟨sameItem, included⟩ := included
      have lighter : weight before ≤ weight after :=
        ih.elim (fun same => Nat.le_of_eq (congrArg weight same)) Nat.le_of_lt
      rcases TerminalSet.eq_or_size_lt included with same | smaller
      · rcases ih with same' | smaller
        · exact Or.inl (congrArg₂ List.cons (Prod.ext sameItem same) same')
        · right
          have sizes := congrArg TerminalSet.size same
          simp only [weight] at smaller sizes ⊢
          omega
      · right
        simp only [weight] at lighter smaller ⊢
        omega
  | @cons_right entry before after _ ih =>
      right
      have lighter : weight before ≤ weight after :=
        ih.elim (fun same => Nat.le_of_eq (congrArg weight same)) Nat.le_of_lt
      simp only [weight] at lighter ⊢
      omega

theorem Grown.antisymm (lower : Grown before after) (upper : Grown after before) : before = after := by
  rcases lower.eq_or_weight_lt with same | lighter
  · exact same
  · rcases upper.eq_or_weight_lt with same | heavier
    · exact same.symm
    · exact absurd heavier (Nat.lt_asymm lighter)

theorem Grown.exists (grown : Grown before after) {entry : Item × TerminalSet} (member : entry ∈ before) :
    ∃ larger ∈ after, entry.1 = larger.1 ∧ entry.2.Included larger.2 := by
  induction grown with
  | nil => cases member
  | @cons first larger _ _ included _ ih =>
      rcases List.mem_cons.mp member with rfl | member
      · exact ⟨larger, List.mem_cons_self, included⟩
      · obtain ⟨other, isOther, included⟩ := ih member
        exact ⟨other, List.mem_cons_of_mem _ isOther, included⟩
  | cons_right _ ih =>
      obtain ⟨other, isOther, included⟩ := ih member
      exact ⟨other, List.mem_cons_of_mem _ isOther, included⟩

theorem grown_foldl {β : Type} {step : ItemSet → β → ItemSet}
    (grows : ∀ items value, Grown items (step items value)) (values : List β) (items : ItemSet) :
    Grown items (values.foldl step items) :=
  below_foldl Grown.refl Grown.trans grows values items

theorem grown_passes {β : Type} {step : ItemSet → β → ItemSet}
    (grows : ∀ items value, Grown items (step items value)) {values : List β} (items : ItemSet) :
    ∀ value ∈ values, ∃ current, Grown items current ∧ Grown (step current value) (values.foldl step items) :=
  foldl_passes Grown.refl Grown.trans grows items

theorem grown_update (item : Item) (lookaheads : TerminalSet) (items : Keyed Item TerminalSet) :
    Grown items (items.update item ∅ (· ∪ lookaheads)) := by
  induction items with
  | nil => exact .nil
  | cons entry items ih =>
      rw [Keyed.update]
      split
      · rename_i same
        exact .cons ⟨same, .union⟩ (Grown.refl items)
      · exact .cons ⟨rfl, fun _ member => member⟩ ih

/-! ### Uniting -/

theorem grown_absorb (item : Item) (lookaheads : TerminalSet) (items : ItemSet) :
    Grown items (items.absorb item lookaheads).1 := by
  induction items with
  | nil => exact .nil
  | cons entry items ih =>
      rw [absorb]
      split
      · rename_i same
        exact .cons ⟨same, .union⟩ (Grown.refl items)
      · split
        · exact .cons_right (Grown.refl _)
        · exact .cons ⟨rfl, fun _ member => member⟩ ih

/-- Uniting says exactly whether it has changed anything. -/
theorem absorb_eq (item : Item) (lookaheads : TerminalSet) (items : ItemSet) :
    items.absorb item lookaheads =
      ((items.absorb item lookaheads).1, decide ((items.absorb item lookaheads).1 ≠ items)) := by
  refine Prod.ext rfl ?_
  induction items with
  | nil => rfl
  | cons entry items ih =>
      obtain ⟨known, set⟩ := entry
      rw [absorb]
      split
      · rename_i same
        simp [TerminalSet.absorb_eq, show known = item from same]
      · split
        · have longer : (item, ∅ ∪ lookaheads) :: (known, set) :: items ≠ (known, set) :: items := fun same => by
            have lengths := congrArg List.length same
            simp at lengths
          exact (decide_eq_true longer).symm
        · simp [ih]

/-- What is kept where lookaheads are united holds of all entries that there are then. -/
theorem forall_mem_absorb (holds : Item → TerminalSet → Prop) {item : Item} {lookaheads : TerminalSet}
    (all : ∀ entry ∈ items, holds entry.1 entry.2) (ofNew : holds item (∅ ∪ lookaheads))
    (ofKnown : ∀ set, holds item set → holds item (set ∪ lookaheads)) :
    ∀ entry ∈ (items.absorb item lookaheads).1, holds entry.1 entry.2 := by
  induction items with
  | nil =>
      intro entry member
      cases List.mem_singleton.mp member
      exact ofNew
  | cons first items ih =>
      have isFirst := all first List.mem_cons_self
      have later := ih fun entry member => all entry (List.mem_cons_of_mem _ member)
      intro entry member
      rw [absorb] at member
      split at member
      · rename_i same
        rcases List.mem_cons.mp member with rfl | member
        · exact ofKnown first.2 (same ▸ isFirst)
        · exact all entry (List.mem_cons_of_mem _ member)
      · split at member
        · rcases List.mem_cons.mp member with rfl | member
          · exact ofNew
          · exact all entry member
        · rcases List.mem_cons.mp member with rfl | member
          · exact isFirst
          · exact later entry member

theorem exists_mem_absorb (item : Item) (lookaheads : TerminalSet) (items : ItemSet) :
    ∃ set, (item, set ∪ lookaheads) ∈ (items.absorb item lookaheads).1 := by
  induction items with
  | nil => exact ⟨∅, List.mem_singleton_self _⟩
  | cons first items ih =>
      rw [absorb]
      split
      · exact ⟨first.2, List.mem_cons_self⟩
      · split
        · exact ⟨∅, List.mem_cons_self⟩
        · obtain ⟨set, member⟩ := ih
          exact ⟨set, List.mem_cons_of_mem _ member⟩

end ItemSet

theorem Item.isBefore_iff {first second : Item} : first.isBefore second = true ↔ first.Before second := by
  simp [Item.isBefore, Item.Before]

/-- Of two items, one comes before the other unless they are the same. -/
theorem Item.before_of_ne {first second : Item} (different : first ≠ second) (notBefore : ¬second.Before first) :
    first.Before second := by
  obtain ⟨rule, marker⟩ := first
  obtain ⟨rule', marker'⟩ := second
  simp only [Item.Before, ne_eq, Item.mk.injEq, RuleId] at different notBefore ⊢
  omega

theorem Item.Before.trans {first second third : Item} (lower : first.Before second) (upper : second.Before third) :
    first.Before third := by
  simp only [Item.Before, RuleId] at lower upper ⊢
  omega

namespace ItemSet

variable {grammar : Grammar α} {firsts : FirstSets} {before after items kernel : ItemSet}

abbrev Ordered (items : ItemSet) : Prop :=
  items.Pairwise fun first second => first.1.Before second.1

theorem Ordered.absorb (ordered : items.Ordered) (item : Item) (lookaheads : TerminalSet) :
    (items.absorb item lookaheads).1.Ordered := by
  induction items with
  | nil => exact List.pairwise_singleton _ _
  | cons first items ih =>
      obtain ⟨isFirst, ordered⟩ := List.pairwise_cons.mp ordered
      rw [ItemSet.absorb]
      split
      · rename_i same
        exact List.pairwise_cons.mpr ⟨fun entry member => same ▸ isFirst entry member, ordered⟩
      · rename_i different
        split
        · rename_i isBefore
          have isBefore := Item.isBefore_iff.mp isBefore
          refine List.pairwise_cons.mpr ⟨fun entry member => ?_, List.pairwise_cons.mpr ⟨isFirst, ordered⟩⟩
          rcases List.mem_cons.mp member with rfl | member
          · exact isBefore
          · exact isBefore.trans (isFirst entry member)
        · rename_i notBefore
          have later : first.1.Before item :=
            Item.before_of_ne different fun isBefore => notBefore (Item.isBefore_iff.mpr isBefore)
          exact List.pairwise_cons.mpr ⟨forall_mem_absorb (fun other _ => first.1.Before other) isFirst later
            fun _ _ => later, ih ordered⟩

theorem Ordered.lookaheads?_eq (ordered : items.Ordered) {item : Item} {set : TerminalSet} :
    items.lookaheads? item = some set ↔ (item, set) ∈ items := by
  constructor
  · intro found
    obtain ⟨⟨known, set'⟩, isFound, rfl⟩ := Option.map_eq_some_iff.mp found
    have same := List.find?_some (p := fun entry : Item × TerminalSet => entry.1 == item) isFound
    rw [← eq_of_beq same]
    exact List.mem_of_find?_eq_some isFound
  · intro member
    cases found : items.find? fun entry => entry.1 == item with
    | none =>
        have different := List.find?_eq_none.mp found _ member
        exact absurd (beq_self_eq_true item) different
    | some entry =>
        have isItem := List.find?_some (p := fun entry : Item × TerminalSet => entry.1 == item) found
        have same : entry.1 = item := eq_of_beq isItem
        have present := List.mem_of_find?_eq_some found
        rw [lookaheads?, found, Option.map_some]
        rw [← same] at member
        exact congrArg some (lookaheads_unique ordered present member)

/-! ### Maps of lookaheads -/

/-- Whether a map has the items of a set, with their lookaheads. -/
def LiesIn (items : ItemSet) (map : Item → Option TerminalSet) : Prop :=
  ∀ entry ∈ items, ∃ larger, map entry.1 = some larger ∧ entry.2.Included larger

/-- Lookaheads that a map has for an item may be united with others that it has, starting with none. -/
theorem exists_larger_union {map : Item → Option TerminalSet} {item : Item} {set known lookaheads : TerminalSet}
    (isThere : map item = some set) (lower : lookaheads.Included set)
    (isKnown : known = ∅ ∨ ∃ larger, map item = some larger ∧ known.Included larger) :
    ∃ larger, map item = some larger ∧ (known ∪ lookaheads).Included larger := by
  refine ⟨set, isThere, fun terminal isMember => ?_⟩
  rcases TerminalSet.mem_union.mp isMember with isMember | isMember
  · rcases isKnown with rfl | ⟨larger, isThere', included⟩
    · exact absurd isMember (TerminalSet.not_mem_empty terminal)
    · cases isThere.symm.trans isThere'
      exact included terminal isMember
  · exact lower terminal isMember

/-- Whether a map has what its items predict: for each item with a nonterminal after its marker and each rule of that
nonterminal, the item at the start of the rule, with what can follow there. -/
def Predictive (grammar : Grammar α) (firsts : FirstSets) (map : Item → Option TerminalSet) : Prop :=
  ∀ item lookaheads, map item = some lookaheads → ∀ nonterminal rest,
    (grammar.right item.rule).drop item.marker = .nonterminal nonterminal :: rest →
      ∀ number rule, grammar.rule? number = some rule → rule.left = nonterminal →
        ∃ larger, map ⟨number, 0⟩ = some larger ∧ (firsts.ofStringThen rest lookaheads).Included larger

/-- What an entry of a set predicts is in a map that has the set and what its items predict. -/
theorem Predictive.ofEntry {map : Item → Option TerminalSet} (predictive : Predictive grammar firsts map)
    {item : Item} {lookaheads larger : TerminalSet} (isIn : map item = some larger)
    (included : lookaheads.Included larger) {nonterminal : Nonterminal} {rest : List Symbol}
    (isNext : (grammar.right item.rule).drop item.marker = .nonterminal nonterminal :: rest) {number : RuleId}
    {rule : Rule α} (known : grammar.rule? number = some rule) (ofRule : rule.left = nonterminal) :
    ∃ larger, map ⟨number, 0⟩ = some larger ∧ (firsts.ofStringThen rest lookaheads).Included larger := by
  obtain ⟨largest, isThere, lower⟩ := predictive item larger isIn nonterminal rest isNext number rule known ofRule
  exact ⟨largest, isThere, fun terminal member =>
    lower terminal (firsts.ofStringThen_mono rest included terminal member)⟩

theorem Ordered.grown_of_liesIn (ordered : before.Ordered) (ordered' : after.Ordered)
    (lies : before.LiesIn after.lookaheads?) : Grown before after := by
  have inAfter : ∀ entry ∈ before, ∃ larger, (entry.1, larger) ∈ after ∧ entry.2.Included larger := by
    intro entry member
    obtain ⟨larger, isIn, included⟩ := lies entry member
    exact ⟨larger, ordered'.lookaheads?_eq.mp isIn, included⟩
  clear lies
  induction after generalizing before with
  | nil =>
      cases before with
      | nil => exact .nil
      | cons entry before =>
          obtain ⟨_, isIn, _⟩ := inAfter entry List.mem_cons_self
          cases isIn
  | cons first after ih =>
      obtain ⟨isFirst, ordered'⟩ := List.pairwise_cons.mp ordered'
      -- what is not the first of the larger set is among its others
      have later {entries : ItemSet} (ordered : entries.Ordered) (others : ∀ entry ∈ entries, entry.1 ≠ first.1)
          (isIn : ∀ entry ∈ entries, ∃ larger, (entry.1, larger) ∈ first :: after ∧ entry.2.Included larger) :
          Grown entries after := by
        refine ih ordered ordered' fun entry member => ?_
        obtain ⟨larger, isIn, included⟩ := isIn entry member
        rcases List.mem_cons.mp isIn with same | isIn
        · exact absurd (congrArg Prod.fst same) (others entry member)
        · exact ⟨larger, isIn, included⟩
      cases before with
      | nil => exact .nil
      | cons entry before =>
          obtain ⟨isLeast, rest⟩ := List.pairwise_cons.mp ordered
          obtain ⟨larger, isIn, included⟩ := inAfter entry List.mem_cons_self
          rcases List.mem_cons.mp isIn with same | isIn
          · subst same
            refine .cons ⟨rfl, included⟩ (later rest (fun other member same => ?_) fun other member =>
              inAfter other (List.mem_cons_of_mem _ member))
            have before := isLeast other member
            rw [same] at before
            exact before.asymm before
          · have isLater := isFirst _ isIn
            refine .cons_right (later ordered (fun other member same => ?_) inAfter)
            rcases List.mem_cons.mp member with rfl | member
            · rw [same] at isLater
              exact isLater.asymm isLater
            · have before := isLeast other member
              rw [same] at before
              exact before.asymm isLater

/-! ### Closures -/

theorem Regular.liesIn_closure (regular : kernel.Regular grammar) (wellFormed : grammar.WellFormed) :
    kernel.LiesIn (kernel.closure grammar firsts).lookaheads? := by
  intro entry member
  obtain ⟨rule, known, _⟩ := regular.known entry member
  exact ⟨entry.2, (Ordered.lookaheads?_eq (regular.closure_ordered wellFormed)).mpr
    (mem_closure.mpr ⟨rule, known, Or.inr member⟩), fun _ isIn => isIn⟩

theorem Regular.closure_predictive (regular : kernel.Regular grammar) (wellFormed : grammar.WellFormed)
    (sizedFirsts : firsts.Sized grammar) :
    Predictive grammar firsts (kernel.closure grammar firsts).lookaheads? := by
  have ordered : (kernel.closure grammar firsts).Ordered := regular.closure_ordered wellFormed
  intro item lookaheads isIn nonterminal rest isNext number rule known ofRule
  have declared : nonterminal < grammar.nonterminals.length := by
    have member : Symbol.nonterminal nonterminal ∈ grammar.right item.rule := by
      apply List.mem_of_mem_drop (i := item.marker)
      rw [isNext]
      exact List.mem_cons_self
    exact (wellFormed.usable_of_mem_right_number member).2
  have expected : ∃ set, (Predictions.compute grammar firsts kernel).get? nonterminal = some set ∧
      (firsts.ofStringThen rest lookaheads).Included set := by
    obtain ⟨before, known, ⟨atStart, expected⟩ | inKernel⟩ := mem_closure.mp (ordered.lookaheads?_eq.mp isIn)
    · rw [atStart, List.drop_zero, Grammar.right_eq known] at isNext
      exact Predictions.compute_of_rule sizedFirsts regular.within known expected declared isNext
    · exact Predictions.compute_of_kernel inKernel declared isNext
  obtain ⟨set, isExpected, included⟩ := expected
  have inClosure : (⟨number, 0⟩, set) ∈ kernel.closure grammar firsts :=
    mem_closure.mpr ⟨rule, known, Or.inl ⟨rfl, ofRule ▸ isExpected⟩⟩
  exact ⟨set, ordered.lookaheads?_eq.mpr inClosure, included⟩

theorem Predictive.closure_liesIn {map : Item → Option TerminalSet} (predictive : Predictive grammar firsts map)
    (lies : kernel.LiesIn map) : (kernel.closure grammar firsts).LiesIn map := by
  have bounded : (Predictions.compute grammar firsts kernel).Bounded
      (fun nonterminal => ∀ number rule, grammar.rule? number = some rule → rule.left = nonterminal →
        ∃ larger, map ⟨number, 0⟩ = some larger)
      (fun nonterminal terminal => ∀ number rule, grammar.rule? number = some rule → rule.left = nonterminal →
        ∃ larger, map ⟨number, 0⟩ = some larger ∧ terminal ∈ larger) := by
    apply Predictions.compute_bounded
    · intro entry member nonterminal rest isNext
      obtain ⟨larger, isIn, included⟩ := lies entry member
      refine ⟨fun number rule known ofRule => ?_, fun terminal follows number rule known ofRule => ?_⟩
      · obtain ⟨set, isThere, _⟩ := predictive.ofEntry isIn included isNext known ofRule
        exact ⟨set, isThere⟩
      · obtain ⟨set, isThere, included⟩ := predictive.ofEntry isIn included isNext known ofRule
        exact ⟨set, isThere, included terminal follows⟩
    · intro number rule known expected lookaheads follows nonterminal rest right
      obtain ⟨larger, isIn⟩ := expected number rule known rfl
      have included : lookaheads.Included larger := by
        intro terminal member
        obtain ⟨set, isThere, isMember⟩ := follows terminal member number rule known rfl
        cases isIn.symm.trans isThere
        exact isMember
      have isNext : (grammar.right number).drop 0 = .nonterminal nonterminal :: rest := by
        rw [List.drop_zero, Grammar.right_eq known, right]
      refine ⟨fun number' rule' known' ofRule => ?_, fun terminal follows number' rule' known' ofRule => ?_⟩
      · obtain ⟨set, isThere, _⟩ := predictive.ofEntry isIn included isNext known' ofRule
        exact ⟨set, isThere⟩
      · obtain ⟨set, isThere, included⟩ :=
          predictive.ofEntry isIn included isNext known' ofRule
        exact ⟨set, isThere, included terminal follows⟩
  rintro ⟨item, lookaheads⟩ member
  obtain ⟨rule, known, ⟨atStart, expected⟩ | inKernel⟩ := mem_closure.mp member
  · obtain ⟨number, marker⟩ := item
    cases atStart
    obtain ⟨isExpected, follows⟩ := bounded rule.left lookaheads expected
    obtain ⟨larger, isIn⟩ := isExpected number rule known rfl
    refine ⟨larger, isIn, fun terminal member => ?_⟩
    obtain ⟨set, isThere, isMember⟩ := follows terminal member number rule known rfl
    cases isIn.symm.trans isThere
    exact isMember
  · exact lies _ inKernel

/-- The least map that has a kernel and what its items predict. -/
structure Closes (grammar : Grammar α) (firsts : FirstSets) (kernel items : ItemSet) : Prop where
  /-- Each item is there once, with the union of its lookaheads. -/
  ordered : items.Ordered
  lies : kernel.LiesIn items.lookaheads?
  predictive : Predictive grammar firsts items.lookaheads?
  least : ∀ map, kernel.LiesIn map → Predictive grammar firsts map → items.LiesIn map

theorem Regular.closes (regular : kernel.Regular grammar) (wellFormed : grammar.WellFormed)
    (sizedFirsts : firsts.Sized grammar) : Closes grammar firsts kernel (kernel.closure grammar firsts) :=
  ⟨regular.closure_ordered wellFormed, regular.liesIn_closure wellFormed,
    regular.closure_predictive wellFormed sizedFirsts, fun _ lies predictive => predictive.closure_liesIn lies⟩

/-! ### Rounds -/

/-- Uniting, with nothing said about it. -/
def unite (items : ItemSet) (entry : Item × TerminalSet) : ItemSet :=
  (items.absorb entry.1 entry.2).1

theorem grown_unite (items : ItemSet) (entry : Item × TerminalSet) : Grown items (items.unite entry) :=
  grown_absorb entry.1 entry.2 items

/-- A round, with nothing said about it. -/
def closeOnce (grammar : Grammar α) (firsts : FirstSets) (items : ItemSet) : ItemSet :=
  (items.predicted grammar firsts).foldl unite items

/-- A round says exactly whether it has changed anything. -/
theorem closeRound_eq (grammar : Grammar α) (firsts : FirstSets) (items : ItemSet) :
    closeRound grammar firsts items =
      (closeOnce grammar firsts items, decide (closeOnce grammar firsts items ≠ items)) := by
  have reports : closeRound grammar firsts items =
      (closeOnce grammar firsts items, false || decide (closeOnce grammar firsts items ≠ items)) := by
    refine @foldl_reports _ _ _ Grown unite reportAbsorb Grown.refl Grown.trans Grown.antisymm grown_unite
      (fun current grown entry => ?_) _ _ _
    rw [reportAbsorb, absorb_eq]
    rfl
  rwa [Bool.false_or] at reports

theorem grown_closeOnce (items : ItemSet) : Grown items (closeOnce grammar firsts items) :=
  grown_foldl grown_unite _ items

theorem Ordered.ofRound (ordered : items.Ordered) : (closeOnce grammar firsts items).Ordered :=
  foldl_preserves Ordered (fun _ entry _ current => current.absorb entry.1 entry.2) ordered

theorem grown_predictAfter (grammar : Grammar α) (firsts : FirstSets) (predicted : Keyed Item TerminalSet)
    (entry : Item × TerminalSet) :
    Grown predicted (predictAfter grammar firsts predicted entry) := by
  unfold predictAfter
  split
  · exact grown_foldl (fun current numbered => grown_update _ _ current) _ predicted
  · exact Grown.refl predicted

/-- What an entry predicts is predicted. -/
theorem exists_mem_predicted (firsts : FirstSets) {entry : Item × TerminalSet} (member : entry ∈ items)
    {nonterminal : Nonterminal} {rest : List Symbol}
    (isNext : (grammar.right entry.1.rule).drop entry.1.marker = .nonterminal nonterminal :: rest)
    {number : RuleId} {rule : Rule α} (known : grammar.rule? number = some rule) (ofRule : rule.left = nonterminal) :
    ∃ set, (⟨number, 0⟩, set) ∈ items.predicted grammar firsts ∧
      (firsts.ofStringThen rest entry.2).Included set := by
  obtain ⟨current, _, upper⟩ := grown_passes (grown_predictAfter grammar firsts) [] entry member
  have isRule : (rule, number) ∈ grammar.rulesOf nonterminal :=
    List.mem_filter.mpr ⟨Grammar.mem_numberedRules.mpr known, beq_iff_eq.mpr ofRule⟩
  obtain ⟨current', _, upper'⟩ := grown_passes
    (fun current (numbered : Rule α × RuleId) =>
      grown_update ⟨numbered.2, 0⟩ (firsts.ofStringThen rest entry.2) current) current (rule, number) isRule
  simp only [predictAfter, isNext] at upper
  obtain ⟨value, isThere⟩ := Keyed.exists_mem_update current' (⟨number, 0⟩ : Item) ∅
    (· ∪ firsts.ofStringThen rest entry.2)
  obtain ⟨⟨_, set⟩, isPredicted, rfl, included⟩ := (upper'.trans upper).exists isThere
  exact ⟨set, isPredicted, fun terminal member => included terminal (TerminalSet.mem_union.mpr (Or.inr member))⟩

/-- What is predicted is in every map that has the items and what its items predict. -/
theorem Predictive.predicted_liesIn {map : Item → Option TerminalSet} (predictive : Predictive grammar firsts map)
    (lies : items.LiesIn map) : ItemSet.LiesIn (items.predicted grammar firsts) map := by
  refine foldl_preserves (fun current : Keyed Item TerminalSet => ItemSet.LiesIn current map)
    (fun current entry member isIn => ?_) (by intro entry member; cases member)
  unfold predictAfter
  split
  · rename_i nonterminal rest isNext
    refine foldl_preserves (fun current : Keyed Item TerminalSet => ItemSet.LiesIn current map)
      (fun current numbered isRule isIn => ?_) isIn
    obtain ⟨isNumbered, ofRule⟩ := List.mem_filter.mp isRule
    obtain ⟨larger, isLarger, included⟩ := lies entry member
    obtain ⟨set, isThere, lower⟩ := predictive.ofEntry isLarger included isNext
      (Grammar.mem_numberedRules.mp isNumbered) (eq_of_beq ofRule)
    exact Keyed.forall_mem_update
      (fun item (set : TerminalSet) => ∃ larger, map item = some larger ∧ set.Included larger) isIn
      (exists_larger_union isThere lower (Or.inl rfl))
      fun _ isKnown => exists_larger_union isThere lower (Or.inr isKnown)
  · exact isIn

theorem Predictive.closeOnce_liesIn {map : Item → Option TerminalSet} (predictive : Predictive grammar firsts map)
    (lies : items.LiesIn map) : (closeOnce grammar firsts items).LiesIn map := by
  refine foldl_preserves (fun current : ItemSet => current.LiesIn map) (fun current entry member isIn => ?_) lies
  obtain ⟨set, isThere, lower⟩ := predictive.predicted_liesIn lies entry member
  exact forall_mem_absorb
    (fun item (set : TerminalSet) => ∃ larger, map item = some larger ∧ set.Included larger) isIn
    (exists_larger_union isThere lower (Or.inl rfl))
    fun _ isKnown => exists_larger_union isThere lower (Or.inr isKnown)

/-- Where a round changes nothing, the items have what they predict. -/
theorem Ordered.predictive_of_fixed (ordered : items.Ordered) (fixed : closeOnce grammar firsts items = items) :
    Predictive grammar firsts items.lookaheads? := by
  intro item lookaheads isIn nonterminal rest isNext number rule known ofRule
  obtain ⟨set, isPredicted, included⟩ := exists_mem_predicted firsts
    (ordered.lookaheads?_eq.mp isIn) isNext known ofRule
  obtain ⟨current, _, upper⟩ := grown_passes grown_unite items _ isPredicted
  obtain ⟨before, isThere⟩ := exists_mem_absorb ⟨number, 0⟩ set current
  obtain ⟨⟨_, larger⟩, isLarger, rfl, included'⟩ := upper.exists isThere
  change _ ∈ closeOnce grammar firsts items at isLarger
  rw [fixed] at isLarger
  exact ⟨larger, ordered.lookaheads?_eq.mpr isLarger, fun terminal member =>
    included' terminal (TerminalSet.mem_union.mpr (Or.inr (included terminal member)))⟩

/-- Finitely many rounds that change something lead from a kernel to its closure, where a round changes nothing. -/
theorem Regular.repeats_closure (regular : kernel.Regular grammar) (wellFormed : grammar.WellFormed)
    (sizedFirsts : firsts.Sized grammar) :
    ∃ rounds, Repeats (closeRound grammar firsts) rounds kernel (kernel.closure grammar firsts) := by
  have closes := regular.closes wellFormed sizedFirsts
  let limit := weight (kernel.closure grammar firsts)
  let keeps : ItemSet → Prop := fun items =>
    items.Ordered ∧ Grown kernel items ∧ items.LiesIn (kernel.closure grammar firsts).lookaheads?
  have step (items : ItemSet) (kept : keeps items) : keeps (closeOnce grammar firsts items) :=
    ⟨kept.1.ofRound, kept.2.1.trans (grown_closeOnce items), closes.predictive.closeOnce_liesIn kept.2.2⟩
  have start : keeps kernel := ⟨regular.ordered, Grown.refl kernel, closes.lies⟩
  have fixed := round_saturate (closeOnce grammar firsts) keeps weight limit step
    (fun items _ changed => (grown_closeOnce items).eq_or_weight_lt.resolve_left (Ne.symm changed))
    (fun items kept => (kept.1.grown_of_liesIn closes.ordered kept.2.2).eq_or_weight_lt.elim
      (fun same => Nat.le_of_eq (congrArg weight same)) Nat.le_of_lt)
    limit kernel start (Nat.le_add_right _ _)
  have kept := saturate_preserves (closeOnce grammar firsts) keeps step limit kernel start
  obtain ⟨rounds, _, repeats⟩ := exists_repeats (closeRound_eq grammar firsts) fixed
  refine ⟨rounds, ?_⟩
  -- what is closed has the closure, and it has never had more
  generalize saturate (closeOnce grammar firsts) limit kernel = last at fixed kept repeats
  obtain ⟨ordered, grown, lies⟩ := kept
  have inLast : kernel.LiesIn last.lookaheads? := by
    intro entry member
    obtain ⟨⟨item, larger⟩, isThere, same, included⟩ := grown.exists member
    exact ⟨larger, ordered.lookaheads?_eq.mpr (show (entry.1, larger) ∈ last from same ▸ isThere), included⟩
  have upper := closes.least _ inLast (ordered.predictive_of_fixed fixed)
  have same : last = kernel.closure grammar firsts :=
    (ordered.grown_of_liesIn closes.ordered lies).antisymm (closes.ordered.grown_of_liesIn ordered upper)
  rwa [same] at repeats

end ItemSet

end CoolLang
