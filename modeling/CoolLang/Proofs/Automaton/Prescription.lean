import CoolLang.Automaton.Table
import CoolLang.Proofs.Automaton.ValidItem

/-!
The generated table says what the valid items prescribe. A cell holds the values registered for it and
nothing else (`TableRow.mem_cell_registerAll`). An action is registered for what an item says
(`ParseTable.Prescribes`). On the state that a string leads to, an action is in a
cell of the generated table exactly when a valid item warrants it (`ParseTable.mem_actionCell_iff`),
and the goto in effect is the transition (`ParseTable.goto?_eq_some_iff`). Without conflicts every
warranted action is in effect (`ParseTable.action?_of_warrants`).
-/

namespace CoolLang

/-! ### Rows -/

namespace TableRow

variable {κ ν : Type} [DecidableEq κ]

theorem cell_nil (key : κ) : cell ([] : TableRow κ ν) key = [] := rfl

theorem cell_cons (known : κ) (values : List ν) (row : TableRow κ ν) (key : κ) :
    cell ((known, values) :: row) key = if known = key then values else row.cell key := by
  unfold cell
  rw [List.find?_cons]
  by_cases same : known = key
  · rw [if_pos same, beq_iff_eq.mpr same]
    rfl
  · rw [if_neg same, beq_eq_false_iff_ne.mpr same]

theorem length_cell_le_one {row : TableRow κ ν} (free : row.crowded.isEmpty = true) (key : κ) :
    (row.cell key).length ≤ 1 := by
  induction row with
  | nil => exact Nat.zero_le _
  | cons entry row ih =>
      obtain ⟨known, values⟩ := entry
      unfold crowded at free
      rw [List.isEmpty_iff, List.filter_cons] at free
      split at free
      · cases free
      · rename_i few
        rw [cell_cons]
        split
        · simpa using few
        · exact ih (List.isEmpty_iff.mpr free)

variable [DecidableEq ν]

theorem cell_register (row : TableRow κ ν) (key other : κ) (value : ν) :
    (row.register key value).cell other =
      if key = other then
        (if value ∈ row.cell key then row.cell key else row.cell key ++ [value])
      else row.cell other := by
  induction row with
  | nil =>
      rw [register, cell_cons, cell_nil, cell_nil]
      simp
  | cons entry row ih =>
      obtain ⟨known, values⟩ := entry
      unfold register
      by_cases same : known = key
      · subst same
        rw [if_pos rfl, cell_cons, cell_cons, cell_cons, if_pos rfl]
        split <;> rfl
      · rw [if_neg same, cell_cons, ih, cell_cons, cell_cons, if_neg same]
        by_cases isOther : known = other
        · subst isOther
          rw [if_pos rfl, if_pos rfl, if_neg (fun equal => same equal.symm)]
        · rw [if_neg isOther, if_neg isOther]

/-- Registers all listed values in order. -/
def registerAll (row : TableRow κ ν) (entries : List (κ × ν)) : TableRow κ ν :=
  entries.foldl (fun row entry => row.register entry.1 entry.2) row

theorem mem_cell_registerAll (row : TableRow κ ν) (entries : List (κ × ν)) (key : κ) (value : ν) :
    value ∈ (row.registerAll entries).cell key ↔ value ∈ row.cell key ∨ (key, value) ∈ entries := by
  induction entries generalizing row with
  | nil => simp [registerAll]
  | cons entry entries ih =>
      obtain ⟨known, new⟩ := entry
      have step : (row.registerAll ((known, new) :: entries)) =
          (row.register known new).registerAll entries := rfl
      have added : value ∈ (row.register known new).cell key ↔
          value ∈ row.cell key ∨ known = key ∧ new = value := by
        rw [cell_register]
        by_cases same : known = key
        · subst same
          rw [if_pos rfl]
          split
          · rename_i present
            constructor
            · exact Or.inl
            · rintro (old | ⟨_, rfl⟩)
              · exact old
              · exact present
          · rw [List.mem_append, List.mem_singleton]
            simp [eq_comm]
        · rw [if_neg same]
          simp [same]
      rw [step, ih, added, List.mem_cons, Prod.mk.injEq, or_assoc]
      simp only [eq_comm]

end TableRow

variable {α : Type} {grammar : Grammar α}

/-! ### What one item prescribes -/

/-- In an item of a rule the marker is at the end or in front of a symbol. -/
theorem Item.next?_eq_none_iff {item : Item}
    (inside : item.marker ≤ (grammar.right item.rule).length) :
    item.next? grammar = none ↔ item.marker = (grammar.right item.rule).length := by
  rw [Item.next?, List.getElem?_eq_none_iff]
  constructor
  · exact Nat.le_antisymm inside
  · exact Nat.le_of_eq ∘ Eq.symm

namespace ParseTable

/-- `Prescribes grammar source entry terminal action`: in the state `source`, the item of `entry` calls
for the action before the terminal. -/
inductive Prescribes (grammar : Grammar α) (source : State) (entry : Item × TerminalSet) :
    Terminal → TableAction → Prop where
  | shift {terminal : Terminal} {next : StateId}
      (isNext : entry.1.next? grammar = some (.terminal terminal))
      (leads : source.transition? (.terminal terminal) = some next) :
      Prescribes grammar source entry terminal (.shift next)
  | reduce {terminal : Terminal}
      (complete : entry.1.marker = (grammar.right entry.1.rule).length)
      (declared : entry.1.rule ≠ RuleId.augmented) (allowed : terminal ∈ entry.2) :
      Prescribes grammar source entry terminal (.reduce entry.1.rule)
  | accept (complete : entry.1.marker = (grammar.right entry.1.rule).length)
      (augmented : entry.1.rule = RuleId.augmented) :
      Prescribes grammar source entry Terminal.eoi .accept

variable {source : State} {entry : Item × TerminalSet} {terminal : Terminal} {action : TableAction}

theorem mem_prescribedActions (inside : entry.1.marker ≤ (grammar.right entry.1.rule).length) :
    (terminal, action) ∈ prescribedActions grammar source entry ↔
      Prescribes grammar source entry terminal action := by
  unfold prescribedActions
  constructor
  · intro prescribed
    split at prescribed
    · rename_i complete
      rw [Item.next?_eq_none_iff inside] at complete
      split at prescribed
      · rename_i augmented
        cases List.mem_singleton.mp prescribed
        exact .accept complete augmented
      · rename_i declared
        obtain ⟨lookahead, inLookaheads, same⟩ := List.mem_map.mp prescribed
        cases same
        exact .reduce complete declared (TerminalSet.mem_toList.mp inLookaheads)
    · rename_i other isNext
      obtain ⟨next, leads, same⟩ := List.mem_map.mp prescribed
      cases same
      exact .shift isNext (Option.mem_toList.mp leads)
    · cases prescribed
  · intro prescribes
    cases prescribes with
    | shift isNext leads =>
        simp only [isNext, leads]
        exact List.mem_singleton.mpr rfl
    | reduce complete declared allowed =>
        simp only [(Item.next?_eq_none_iff inside).mpr complete, if_neg declared]
        exact List.mem_map.mpr ⟨terminal, TerminalSet.mem_toList.mpr allowed, rfl⟩
    | accept complete augmented =>
        simp only [(Item.next?_eq_none_iff inside).mpr complete, if_pos augmented]
        exact List.mem_singleton.mpr rfl

theorem mem_prescribedGotos {nonterminal : Nonterminal} {next : StateId} :
    (nonterminal, next) ∈ prescribedGotos grammar source entry ↔
      entry.1.next? grammar = some (.nonterminal nonterminal) ∧
        source.transition? (.nonterminal nonterminal) = some next := by
  unfold prescribedGotos
  split
  · rename_i other isNext
    rw [isNext, List.mem_map]
    constructor
    · rintro ⟨target, member, same⟩
      cases same
      exact ⟨rfl, Option.mem_toList.mp member⟩
    · rintro ⟨same, leads⟩
      cases same
      exact ⟨next, Option.mem_toList.mpr leads, rfl⟩
  · rename_i different
    constructor
    · intro impossible
      cases impossible
    · rintro ⟨isNext, _⟩
      exact absurd isNext (different nonterminal)

end ParseTable

/-! ### Warrants -/

/-- `Warrants grammar automaton read state terminal action`: after `read`, which leads to `state`, an
item that is valid calls for the action before the terminal. -/
inductive Warrants (grammar : Grammar α) (automaton : Automaton) (read : List Symbol)
    (state : StateId) : Terminal → TableAction → Prop where
  | shift {item : Item} {context : List Symbol} {terminal : Terminal} {next : StateId}
      (valid : grammar.Valid read item context)
      (isNext : item.next? grammar = some (.terminal terminal))
      (leads : automaton.transition? state (.terminal terminal) = some next) :
      Warrants grammar automaton read state terminal (.shift next)
  | reduce {number : RuleId} {rule : Rule α} {context : List Symbol} {terminal : Terminal}
      (known : grammar.rule? number = some rule) (declared : number ≠ RuleId.augmented)
      (valid : grammar.Valid read ⟨number, rule.right.length⟩ context)
      (foresees : grammar.Foresees context terminal) :
      Warrants grammar automaton read state terminal (.reduce number)
  | accept {context : List Symbol} (valid : grammar.Valid read ⟨RuleId.augmented, 1⟩ context) :
      Warrants grammar automaton read state Terminal.eoi .accept

namespace Warrants

variable {automaton : Automaton} {read : List Symbol} {state next : StateId} {terminal : Terminal}

theorem of_shift (warrants : Warrants grammar automaton read state terminal (.shift next)) :
    ∃ item context, grammar.Valid read item context ∧
      item.next? grammar = some (.terminal terminal) ∧
        automaton.transition? state (.terminal terminal) = some next := by
  cases warrants with
  | shift valid isNext leads => exact ⟨_, _, valid, isNext, leads⟩

theorem of_reduce {number : RuleId}
    (warrants : Warrants grammar automaton read state terminal (.reduce number)) :
    ∃ rule context, grammar.rule? number = some rule ∧ number ≠ RuleId.augmented ∧
      grammar.Valid read ⟨number, rule.right.length⟩ context ∧
        grammar.Foresees context terminal := by
  cases warrants with
  | reduce known declared valid foresees => exact ⟨_, _, known, declared, valid, foresees⟩

theorem of_accept (warrants : Warrants grammar automaton read state terminal .accept) :
    terminal = Terminal.eoi ∧ ∃ context, grammar.Valid read ⟨RuleId.augmented, 1⟩ context := by
  cases warrants with
  | accept valid => exact ⟨rfl, _, valid⟩

end Warrants

namespace ParseTable

section OfAutomaton

variable {automaton : Automaton} {state : StateId}

theorem actionRow_eq (source : State) :
    actionRow grammar source =
      TableRow.registerAll [] (source.items.flatMap (prescribedActions grammar source)) := rfl

theorem gotoRow_eq (source : State) :
    gotoRow grammar source =
      TableRow.registerAll [] (source.items.flatMap (prescribedGotos grammar source)) := rfl

theorem actionCell_ofAutomaton {source : State} (found : automaton.states[state]? = some source)
    (terminal : Terminal) :
    (ofAutomaton grammar automaton).actionCell state terminal =
      (actionRow grammar source).cell terminal := by
  simp only [actionCell, ofAutomaton, Array.getElem?_map, found, Option.map_some,
    Option.getD_some]

theorem gotoCell_ofAutomaton {source : State} (found : automaton.states[state]? = some source)
    (nonterminal : Nonterminal) :
    (ofAutomaton grammar automaton).gotoCell state nonterminal =
      (gotoRow grammar source).cell nonterminal := by
  simp only [gotoCell, ofAutomaton, Array.getElem?_map, found, Option.map_some, Option.getD_some]

variable {firsts : FirstSets}

/-- In the states of a canonical automaton the markers of the items are inside their rules. -/
theorem inside_of_mem (canonical : automaton.Canonical grammar firsts) {source : State}
    (found : automaton.states[state]? = some source) {entry : Item × TerminalSet}
    (member : entry ∈ source.items) :
    entry.1.marker ≤ (grammar.right entry.1.rule).length := by
  rw [canonical.items_eq state source found] at member
  obtain ⟨rule, known, inside⟩ :=
    (canonical.regular state source found).closure_known entry member
  rw [Grammar.right_eq known]
  exact inside

theorem mem_actionCell (canonical : automaton.Canonical grammar firsts) {source : State}
    (found : automaton.states[state]? = some source) {terminal : Terminal}
    {action : TableAction} :
    action ∈ (ofAutomaton grammar automaton).actionCell state terminal ↔
      ∃ entry ∈ source.items, Prescribes grammar source entry terminal action := by
  rw [actionCell_ofAutomaton found, actionRow_eq, TableRow.mem_cell_registerAll,
    TableRow.cell_nil, List.mem_flatMap]
  simp only [List.not_mem_nil, false_or]
  apply exists_congr
  intro entry
  exact and_congr_right fun member =>
    mem_prescribedActions (inside_of_mem canonical found member)

/-- A goto cell holds the transition and nothing else. -/
theorem mem_gotoCell (canonical : automaton.Canonical grammar firsts) {source : State}
    (found : automaton.states[state]? = some source) {nonterminal : Nonterminal}
    {next : StateId} :
    next ∈ (ofAutomaton grammar automaton).gotoCell state nonterminal ↔
      source.transition? (.nonterminal nonterminal) = some next := by
  rw [gotoCell_ofAutomaton found, gotoRow_eq, TableRow.mem_cell_registerAll, TableRow.cell_nil,
    List.mem_flatMap]
  simp only [List.not_mem_nil, false_or, mem_prescribedGotos]
  constructor
  · rintro ⟨_, _, _, leads⟩
    exact leads
  · intro leads
    obtain ⟨entry, member, isNext⟩ := ItemSet.mem_nextSymbols.mp
      ((canonical.connected state source found _).mp ⟨next, leads⟩)
    exact ⟨entry, member, isNext, leads⟩

theorem goto?_eq_some_iff (canonical : automaton.Canonical grammar firsts)
    {nonterminal : Nonterminal} {next : StateId} :
    (ofAutomaton grammar automaton).goto? state nonterminal = some next ↔
      automaton.transition? state (.nonterminal nonterminal) = some next := by
  unfold Automaton.transition? goto?
  cases found : automaton.states[state]? with
  | none => simp [gotoCell, ofAutomaton, found, TableRow.cell_nil]
  | some source =>
      rw [Option.bind_some, ← mem_gotoCell canonical found]
      constructor
      · exact List.mem_of_mem_head?
      · intro inCell
        cases cell : (ofAutomaton grammar automaton).gotoCell state nonterminal with
        | nil => rw [cell] at inCell; cases inCell
        | cons target others =>
            -- all values of the cell are the transition, so the first one is
            have leads := (mem_gotoCell canonical found).mp inCell
            have first := (mem_gotoCell canonical found).mp (cell ▸ List.mem_cons_self)
            rw [List.head?_cons, ← first, leads]

theorem production_ofAutomaton {number : RuleId} {rule : Rule α}
    (known : grammar.rule? number = some rule) :
    (ofAutomaton grammar automaton).machine.production number = (rule.left, rule.right.length) := by
  unfold machine ofAutomaton
  dsimp only
  rw [List.getElem?_toArray, List.getElem?_map, show grammar.rules[number]? = some rule from known]
  rfl

theorem action?_of_mem (free : (ofAutomaton grammar automaton).isLR1 = true) {terminal : Terminal}
    {action : TableAction}
    (member : action ∈ (ofAutomaton grammar automaton).actionCell state terminal) :
    (ofAutomaton grammar automaton).action? state terminal = some action := by
  have few : ((ofAutomaton grammar automaton).actionCell state terminal).length ≤ 1 := by
    unfold isLR1 at free
    rw [Bool.and_eq_true, Array.all_eq_true_iff_forall_mem] at free
    unfold actionCell
    cases found : (ofAutomaton grammar automaton).actions[state]? with
    | none => exact Nat.zero_le _
    | some row => exact TableRow.length_cell_le_one (free.1 row (Array.mem_of_getElem? found)) terminal
  unfold action?
  generalize (ofAutomaton grammar automaton).actionCell state terminal = cell at member few
  match cell, member, few with
  | [_], member, _ =>
      rw [List.mem_singleton.mp member]
      rfl

end OfAutomaton

/-! ### Valid items and cells -/

section Generated

variable {read : List Symbol} {state : StateId} {below : List StateId}
  {terminal : Terminal} {action : TableAction}

/-- What an item of a state prescribes, the item's validity warrants. -/
private theorem Prescribes.warrants (wellFormed : grammar.WellFormed) {source : State}
    (isSource : grammar.automaton.states[state]? = some source) {entry : Item × TerminalSet}
    (valid : ItemSet.ValidEntry grammar read entry)
    (known : ∃ rule, grammar.rule? entry.1.rule = some rule)
    (prescribes : Prescribes grammar source entry terminal action) :
    Warrants grammar grammar.automaton read state terminal action := by
  obtain ⟨⟨number, marker⟩, lookaheads⟩ := entry
  obtain ⟨rule, known⟩ := known
  obtain ⟨⟨context, valid⟩, foreseen⟩ := valid
  have right := Grammar.right_eq known
  cases prescribes with
  | shift isNext leads =>
      refine .shift valid isNext ?_
      rw [Automaton.transition?, isSource]
      exact leads
  | reduce complete declared allowed =>
      obtain ⟨context, valid, foresees⟩ := foreseen terminal allowed
      dsimp only at complete right valid
      rw [complete, right] at valid
      exact .reduce known declared valid foresees
  | accept complete augmented =>
      dsimp only at complete augmented right known
      rw [augmented, wellFormed.rule?_augmented] at known
      cases known
      dsimp only at valid
      rw [complete, right, augmented] at valid
      exact .accept valid

/-- What a valid item warrants, an item of the state prescribes. -/
private theorem exists_prescribes_of_warrants (wellFormed : grammar.WellFormed)
    (path : grammar.automaton.Path read state below) {source : State}
    (isSource : grammar.automaton.states[state]? = some source)
    (warrants : Warrants grammar grammar.automaton read state terminal action) :
    ∃ entry ∈ source.items, Prescribes grammar source entry terminal action := by
  have canonical := wellFormed.canonical
  cases warrants with
  | shift valid isNext leads =>
      obtain ⟨lookaheads, member, _⟩ := canonical.mem_of_valid wellFormed valid path isSource
      rw [Automaton.transition?, isSource, Option.bind_some] at leads
      exact ⟨_, member, .shift isNext leads⟩
  | @reduce number rule context _ known declared valid foresees =>
      obtain ⟨lookaheads, member, all⟩ := canonical.mem_of_valid wellFormed valid path isSource
      have complete := congrArg List.length (Grammar.right_eq known).symm
      exact ⟨_, member, .reduce complete declared (all terminal foresees)⟩
  | accept valid =>
      obtain ⟨lookaheads, member, _⟩ := canonical.mem_of_valid wellFormed valid path isSource
      have complete := congrArg List.length
        (Grammar.right_eq wellFormed.rule?_augmented).symm
      exact ⟨_, member, .accept complete rfl⟩

theorem mem_actionCell_iff (wellFormed : grammar.WellFormed)
    (path : grammar.automaton.Path read state below) :
    action ∈ (generate grammar).actionCell state terminal ↔
      Warrants grammar grammar.automaton read state terminal action := by
  have canonical := wellFormed.canonical
  obtain ⟨source, isSource⟩ := canonical.exists_state path
  change action ∈ (ofAutomaton grammar grammar.automaton).actionCell state terminal ↔ _
  rw [mem_actionCell canonical isSource]
  constructor
  · rintro ⟨entry, member, prescribes⟩
    have valid := canonical.valid_of_mem wellFormed path isSource entry member
    rw [canonical.items_eq state source isSource] at member
    obtain ⟨rule, known, _⟩ :=
      (canonical.regular state source isSource).closure_known entry member
    exact prescribes.warrants wellFormed isSource valid ⟨rule, known⟩
  · exact exists_prescribes_of_warrants wellFormed path isSource

theorem warrants_of_action? (wellFormed : grammar.WellFormed)
    (path : grammar.automaton.Path read state below)
    (inEffect : (generate grammar).action? state terminal = some action) :
    Warrants grammar grammar.automaton read state terminal action :=
  (mem_actionCell_iff wellFormed path).mp (List.mem_of_mem_head? inEffect)

theorem action?_of_warrants (wellFormed : grammar.WellFormed)
    (free : (generate grammar).isLR1 = true) (path : grammar.automaton.Path read state below)
    (warrants : Warrants grammar grammar.automaton read state terminal action) :
    (generate grammar).action? state terminal = some action :=
  action?_of_mem free ((mem_actionCell_iff wellFormed path).mpr warrants)

theorem goto?_generate (wellFormed : grammar.WellFormed) {nonterminal : Nonterminal}
    {next : StateId} :
    (generate grammar).goto? state nonterminal = some next ↔
      grammar.automaton.transition? state (.nonterminal nonterminal) = some next :=
  goto?_eq_some_iff wellFormed.canonical

theorem production_generate {number : RuleId} {rule : Rule α}
    (known : grammar.rule? number = some rule) :
    (generate grammar).machine.production number = (rule.left, rule.right.length) :=
  production_ofAutomaton known

end Generated

theorem isLR1_nested : (generate Grammar.nested).isLR1 = true := by decide +kernel

end ParseTable

end CoolLang
