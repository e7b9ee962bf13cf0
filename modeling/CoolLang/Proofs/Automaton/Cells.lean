import CoolLang.Proofs.Automaton.Registration

/-!
The cells of the generated table are what the items of the states prescribe (`ParseTable.Reflects`).
The items of a state are in strict order, so the first value of a cell is what the least item prescribes
that prescribes anything for the terminal (`ParseTable.find?_prescribed`). No goto cell has two values.
So the table is free of conflicts exactly if no action cell has two, and exactly if `conflicts` lists
none (`ParseTable.cells_reflect_items`).
-/

namespace CoolLang

namespace ParseTable

variable {α : Type} {grammar : Grammar α}

/-! ### The action in effect -/

section InEffect

variable {source : State} {entry : Item × TerminalSet} {terminal : Terminal}
  {action : TableAction}

theorem Prescribes.unique {other : TableAction}
    (first : Prescribes grammar source entry terminal action)
    (second : Prescribes grammar source entry terminal other) : action = other := by
  have apart {symbol : Symbol} (isNext : entry.1.next? grammar = some symbol) :
      entry.1.marker ≠ (grammar.right entry.1.rule).length := by
    intro complete
    rw [Item.next?, complete, List.getElem?_length] at isNext
    cases isNext
  cases first with
  | shift isNext leads =>
      cases second with
      | shift _ leads' => rw [Option.some.inj (leads.symm.trans leads')]
      | reduce complete => exact absurd complete (apart isNext)
      | accept complete => exact absurd complete (apart isNext)
  | reduce complete declared =>
      cases second with
      | shift isNext => exact absurd complete (apart isNext)
      | reduce => rfl
      | accept _ augmented => exact absurd augmented declared
  | accept complete augmented =>
      cases second with
      | shift isNext => exact absurd complete (apart isNext)
      | reduce _ declared => exact absurd augmented declared
      | accept => rfl

/-- `LeastPrescribes grammar source items terminal action`: the least of the items, by rule and then by
marker, that calls for anything before the terminal calls for the action. -/
def LeastPrescribes (grammar : Grammar α) (source : State) (items : ItemSet) (terminal : Terminal)
    (action : TableAction) : Prop :=
  ∃ entry ∈ items, Prescribes grammar source entry terminal action ∧
    ∀ other ∈ items, other.1.Before entry.1 →
      ∀ action', ¬Prescribes grammar source other terminal action'

section Cons

variable {first : Item × TerminalSet} {items : ItemSet}

theorem leastPrescribes_cons_of_silent
    (silent : ∀ other, ¬Prescribes grammar source first terminal other) :
    LeastPrescribes grammar source (first :: items) terminal action ↔
      LeastPrescribes grammar source items terminal action := by
  constructor
  · rintro ⟨entry, member, prescribes, least⟩
    rcases List.mem_cons.mp member with rfl | inTail
    · exact absurd prescribes (silent action)
    · exact ⟨entry, inTail, prescribes, (List.forall_mem_cons.mp least).2⟩
  · rintro ⟨entry, member, prescribes, least⟩
    refine ⟨entry, List.mem_cons_of_mem first member, prescribes, ?_⟩
    rw [List.forall_mem_cons]
    exact ⟨fun _ => silent, least⟩

theorem leastPrescribes_cons_of_prescribes {value : TableAction}
    (before : ∀ other ∈ items, first.1.Before other.1)
    (prescribed : Prescribes grammar source first terminal value) :
    LeastPrescribes grammar source (first :: items) terminal action ↔ value = action := by
  constructor
  · rintro ⟨entry, member, prescribes, least⟩
    rcases List.mem_cons.mp member with rfl | inTail
    · exact prescribed.unique prescribes
    · exact absurd prescribed (least first List.mem_cons_self (before entry inTail) value)
  · rintro rfl
    refine ⟨first, List.mem_cons_self, prescribed, ?_⟩
    rw [List.forall_mem_cons]
    constructor
    · intro impossible
      exact absurd impossible impossible.asymm
    · intro other member impossible
      exact absurd impossible (before other member).asymm

end Cons

/-- Among ordered items, what is registered first for a terminal comes from the least item that
prescribes anything for it. -/
theorem find?_prescribed {items : ItemSet}
    (ordered : items.Pairwise fun first second => first.1.Before second.1)
    (inside : ∀ entry ∈ items, entry.1.marker ≤ (grammar.right entry.1.rule).length) :
    ((items.flatMap (prescribedActions grammar source)).find?
        fun entry => entry.1 == terminal).map Prod.snd = some action ↔
      LeastPrescribes grammar source items terminal action := by
  induction ordered with
  | nil => simp [LeastPrescribes]
  | @cons first items before _ ih =>
      rw [List.forall_mem_cons] at inside
      have known (other : TableAction) :
          (terminal, other) ∈ prescribedActions grammar source first ↔
            Prescribes grammar source first terminal other := mem_prescribedActions inside.1
      rw [List.flatMap_cons, List.find?_append]
      cases found : (prescribedActions grammar source first).find?
          fun entry => entry.1 == terminal with
      | none =>
          -- the first item is silent about the terminal, so it does not count
          have silent (other : TableAction) :
              ¬Prescribes grammar source first terminal other := by
            intro prescribes
            have different := List.find?_eq_none.mp found _ ((known other).mpr prescribes)
            exact different (beq_self_eq_true terminal)
          rw [Option.none_or, ih inside.2, leastPrescribes_cons_of_silent silent]
      | some registered =>
          obtain ⟨key, value⟩ := registered
          have isKey : key = terminal := eq_of_beq (List.find?_some found :)
          subst isKey
          -- the first item comes before all others, so it decides
          have prescribed := (known value).mp (List.mem_of_find?_eq_some found)
          rw [leastPrescribes_cons_of_prescribes before prescribed, Option.some_or,
            Option.map_some, Option.some.injEq]

end InEffect

/-! ### Rows of a state -/

section OfAutomaton

variable {automaton : Automaton} {firsts : FirstSets} {state : StateId} {source : State}

theorem actionRow_regular (source : State) : (actionRow grammar source).Regular := by
  rw [actionRow_eq]
  exact TableRow.Regular.nil.registerAll _

theorem gotoRow_regular (source : State) : (gotoRow grammar source).Regular := by
  rw [gotoRow_eq]
  exact TableRow.Regular.nil.registerAll _

theorem action?_eq_some_iff (canonical : automaton.Canonical grammar firsts)
    (wellFormed : grammar.WellFormed) (found : automaton.states[state]? = some source)
    {terminal : Terminal} {action : TableAction} :
    (ofAutomaton grammar automaton).action? state terminal = some action ↔
      LeastPrescribes grammar source source.items terminal action := by
  rw [action?, actionCell_ofAutomaton found, actionRow_eq, TableRow.head?_cell_registerAll,
    TableRow.cell_nil, List.head?_nil, Option.none_or]
  exact find?_prescribed (canonical.items_ordered wellFormed found)
    fun _ member => inside_of_mem canonical found member

theorem gotoCell_eq (canonical : automaton.Canonical grammar firsts)
    (found : automaton.states[state]? = some source) (nonterminal : Nonterminal) :
    (ofAutomaton grammar automaton).gotoCell state nonterminal =
      (source.transition? (.nonterminal nonterminal)).toList := by
  have unrepeated : ((ofAutomaton grammar automaton).gotoCell state nonterminal).Nodup := by
    rw [gotoCell_ofAutomaton found]
    exact (gotoRow_regular source).nodup_cell nonterminal
  have member (next : StateId) :
      next ∈ (ofAutomaton grammar automaton).gotoCell state nonterminal ↔
        source.transition? (.nonterminal nonterminal) = some next := mem_gotoCell canonical found
  cases leads : source.transition? (.nonterminal nonterminal) with
  | none =>
      apply List.eq_nil_iff_forall_not_mem.mpr
      intro next present
      rw [member, leads] at present
      cases present
  | some target =>
      apply List.perm_singleton.mp
      apply (List.perm_ext_iff_of_nodup unrepeated (List.nodup_singleton target)).mpr
      intro next
      rw [member, leads, Option.some.injEq, List.mem_singleton, eq_comm]

theorem mem_actions_ofAutomaton {row : TableRow Terminal TableAction}
    (member : row ∈ (ofAutomaton grammar automaton).actions) : row.Regular := by
  obtain ⟨source, _, rfl⟩ := Array.mem_map.mp member
  exact actionRow_regular source

theorem length_gotoCell_le_one (canonical : automaton.Canonical grammar firsts)
    (state : StateId) (nonterminal : Nonterminal) :
    ((ofAutomaton grammar automaton).gotoCell state nonterminal).length ≤ 1 := by
  cases found : automaton.states[state]? with
  | none => simp [gotoCell, ofAutomaton, found, TableRow.cell_nil]
  | some source =>
      rw [gotoCell_eq canonical found]
      exact Option.length_toList_le

end OfAutomaton

/-! ### Conflicts -/

section Conflicts

variable {table : ParseTable}

theorem mem_conflicts (regular : ∀ row ∈ table.actions, row.Regular) {state : StateId}
    {terminal : Terminal} {cell : List TableAction} :
    (state, terminal, cell) ∈ table.conflicts ↔
      table.actionCell state terminal = cell ∧ 1 < cell.length := by
  unfold conflicts
  rw [List.mem_flatMap]
  constructor
  · rintro ⟨⟨row, number⟩, member, inRow⟩
    obtain ⟨⟨key, values⟩, crowded, same⟩ := List.mem_map.mp inRow
    cases same
    have found := List.mem_zipIdx_iff_getElem?.mp member
    rw [Array.getElem?_toList] at found
    obtain ⟨inRow, many⟩ := List.mem_filter.mp crowded
    have rowRegular := regular row (Array.mem_of_getElem? found)
    refine ⟨?_, of_decide_eq_true many⟩
    rw [actionCell, found]
    exact rowRegular.cell_eq inRow
  · rintro ⟨isCell, many⟩
    unfold actionCell at isCell
    cases found : table.actions[state]? with
    | none =>
        rw [found] at isCell
        subst isCell
        cases many
    | some row =>
        rw [found] at isCell
        have rowRegular := regular row (Array.mem_of_getElem? found)
        have filled : cell ≠ [] := List.ne_nil_of_length_pos (Nat.lt_of_succ_lt many)
        have inRow := rowRegular.mem_iff.mpr ⟨filled, isCell⟩
        refine ⟨(row, state), List.mem_zipIdx_iff_getElem?.mpr ?_, List.mem_map.mpr ?_⟩
        · rw [Array.getElem?_toList]
          exact found
        · exact ⟨(terminal, cell), List.mem_filter.mpr ⟨inRow, decide_eq_true many⟩, rfl⟩

theorem conflicts_eq_nil_iff (regular : ∀ row ∈ table.actions, row.Regular) :
    table.conflicts = [] ↔ ∀ state terminal, (table.actionCell state terminal).length ≤ 1 := by
  rw [List.eq_nil_iff_forall_not_mem]
  constructor
  · intro none state terminal
    apply Nat.le_of_not_lt
    intro many
    exact none _ ((mem_conflicts regular).mpr ⟨rfl, many⟩)
  · rintro few ⟨state, terminal, cell⟩ member
    obtain ⟨rfl, many⟩ := (mem_conflicts regular).mp member
    exact Nat.not_lt_of_le (few state terminal) many

theorem isLR1_iff {automaton : Automaton} {firsts : FirstSets}
    (canonical : automaton.Canonical grammar firsts) :
    (ofAutomaton grammar automaton).isLR1 = true ↔ ∀ state terminal,
      ((ofAutomaton grammar automaton).actionCell state terminal).length ≤ 1 := by
  have gotos : ∀ row ∈ (ofAutomaton grammar automaton).gotos, row.Regular := by
    intro row member
    obtain ⟨source, _, rfl⟩ := Array.mem_map.mp member
    exact gotoRow_regular source
  unfold isLR1
  rw [Bool.and_eq_true, TableRow.all_isEmpty_crowded_iff fun _ => mem_actions_ofAutomaton,
    TableRow.all_isEmpty_crowded_iff gotos]
  exact and_iff_left (length_gotoCell_le_one canonical)

end Conflicts

/-! ### The generated table -/

/-- The cells of a state are what its items prescribe. -/
structure Reflects (grammar : Grammar α) (table : ParseTable) (state : StateId)
    (source : State) : Prop where
  shift_iff : ∀ terminal next, .shift next ∈ table.actionCell state terminal ↔
    (∃ entry ∈ source.items, entry.1.next? grammar = some (.terminal terminal)) ∧
      source.transition? (.terminal terminal) = some next
  reduce_iff : ∀ terminal number, .reduce number ∈ table.actionCell state terminal ↔
    number ≠ RuleId.augmented ∧ ∃ lookaheads,
      (⟨number, (grammar.right number).length⟩, lookaheads) ∈ source.items ∧
        terminal ∈ lookaheads
  accept_iff : ∀ terminal, .accept ∈ table.actionCell state terminal ↔
    terminal = Terminal.eoi ∧ ∃ lookaheads,
      (⟨RuleId.augmented, (grammar.right RuleId.augmented).length⟩, lookaheads) ∈ source.items
  unrepeated : ∀ terminal, (table.actionCell state terminal).Nodup
  inEffect : ∀ terminal action, table.action? state terminal = some action ↔
    LeastPrescribes grammar source source.items terminal action
  goto_eq : ∀ nonterminal, table.gotoCell state nonterminal =
    (source.transition? (.nonterminal nonterminal)).toList

theorem Reflects.ofAutomaton {automaton : Automaton} {firsts : FirstSets}
    (canonical : automaton.Canonical grammar firsts) (wellFormed : grammar.WellFormed)
    {state : StateId} {source : State} (found : automaton.states[state]? = some source) :
    Reflects grammar (ofAutomaton grammar automaton) state source where
  shift_iff := by
    intro terminal next
    rw [mem_actionCell canonical found]
    constructor
    · rintro ⟨entry, member, prescribes⟩
      cases prescribes with
      | shift isNext leads => exact ⟨⟨entry, member, isNext⟩, leads⟩
    · rintro ⟨⟨entry, member, isNext⟩, leads⟩
      exact ⟨entry, member, .shift isNext leads⟩
  reduce_iff := by
    intro terminal number
    rw [mem_actionCell canonical found]
    constructor
    · rintro ⟨⟨⟨rule, marker⟩, lookaheads⟩, member, prescribes⟩
      cases prescribes with
      | reduce complete declared allowed =>
          dsimp only at complete
          subst complete
          exact ⟨declared, lookaheads, member, allowed⟩
    · rintro ⟨declared, lookaheads, member, allowed⟩
      exact ⟨_, member, .reduce rfl declared allowed⟩
  accept_iff := by
    intro terminal
    rw [mem_actionCell canonical found]
    constructor
    · rintro ⟨⟨⟨rule, marker⟩, lookaheads⟩, member, prescribes⟩
      cases prescribes with
      | accept complete augmented =>
          dsimp only at complete augmented
          subst complete augmented
          exact ⟨rfl, lookaheads, member⟩
    · rintro ⟨rfl, lookaheads, member⟩
      exact ⟨_, member, .accept rfl rfl⟩
  unrepeated := by
    intro terminal
    rw [actionCell_ofAutomaton found]
    exact (actionRow_regular source).nodup_cell terminal
  inEffect _ _ := action?_eq_some_iff canonical wellFormed found
  goto_eq := gotoCell_eq canonical found

/-- The cells of every state of a generated table are what the state's items prescribe, each value once,
and the action in effect is the one of the least item that prescribes any. A goto cell has one value.
The table is free of conflicts exactly if no action cell has two values, and exactly if no conflicts are
listed. Filling the table value by value, with a flag that goes down at a second value of a cell, gives
the same table, and the flag is up exactly if the table is free of conflicts. -/
theorem cells_reflect_items {declarations : List (Declaration α)}
    (accepted : Grammar.ofDeclarations declarations = .ok grammar) :
    (∀ state < (generate grammar).actions.size, ∃ source,
        grammar.automaton.states[state]? = some source ∧
          Reflects grammar (generate grammar) state source) ∧
      (∀ row ∈ (generate grammar).gotos, ∀ cell ∈ row, ∃ next, cell.2 = [next]) ∧
      ((generate grammar).isLR1 = true ↔
        ∀ state terminal, ((generate grammar).actionCell state terminal).length ≤ 1) ∧
      ((generate grammar).isLR1 = true ↔ (generate grammar).conflicts = []) ∧
      Registration.ofAutomaton grammar grammar.automaton =
        ⟨generate grammar, (generate grammar).isLR1⟩ := by
  have wellFormed := Grammar.wellFormed_of_declarations accepted
  have canonical := wellFormed.canonical
  have generated : generate grammar = ofAutomaton grammar grammar.automaton := rfl
  rw [generated]
  refine ⟨?_, ?_, isLR1_iff canonical, ?_, Registration.ofAutomaton_eq grammar _⟩
  · intro state inside
    have inStates : state < grammar.automaton.states.size := by
      simpa only [ofAutomaton, Array.size_map] using inside
    have found := Array.getElem?_eq_getElem inStates
    exact ⟨_, found, .ofAutomaton canonical wellFormed found⟩
  · intro row member cell inRow
    obtain ⟨source, isSource, rfl⟩ := Array.mem_map.mp member
    obtain ⟨state, found⟩ := Array.mem_iff_getElem?.mp isSource
    have regular : (gotoRow grammar source).Regular := gotoRow_regular source
    have filled := regular.filled cell inRow
    have isCell := gotoCell_eq canonical found cell.1
    rw [gotoCell_ofAutomaton found, regular.cell_eq inRow] at isCell
    rw [isCell] at filled ⊢
    cases leads : source.transition? (.nonterminal cell.1) with
    | none =>
        rw [leads] at filled
        exact absurd rfl filled
    | some next => exact ⟨next, rfl⟩
  · rw [isLR1_iff canonical, conflicts_eq_nil_iff fun _ => mem_actions_ofAutomaton]

theorem cells_reflect_items_sums :
    Grammar.ofDeclarations Grammar.sumsDeclarations = .ok Grammar.sums ∧
      (generate Grammar.sums).conflicts ≠ [] ∧
      ∃ source, Grammar.sums.automaton.states[4]? = some source ∧
        LeastPrescribes Grammar.sums source source.items 1 (.shift 3) ∧
        ∃ lookaheads, (⟨1, 3⟩, lookaheads) ∈ source.items ∧ 1 ∈ lookaheads := by
  obtain ⟨cells, _, _, free, _⟩ := cells_reflect_items Grammar.sums_accepted
  obtain ⟨source, found, reflects⟩ := cells 4 (by decide +kernel)
  have conflicting : (generate Grammar.sums).isLR1 = false := by decide +kernel
  have reduces : .reduce 1 ∈ (generate Grammar.sums).actionCell 4 1 := by decide +kernel
  refine ⟨Grammar.sums_accepted, ?_, source, found, ?_, ?_⟩
  · intro none
    rw [free.mpr none] at conflicting
    cases conflicting
  · exact (reflects.inEffect 1 (.shift 3)).mp (by decide +kernel)
  · exact ((reflects.reduce_iff 1 1).mp reduces).2

end ParseTable

end CoolLang
