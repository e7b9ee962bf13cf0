import CoolLang.Automaton.Registration
import CoolLang.Proofs.Automaton.Row

/-!
A table that is filled one value after another comes out as the table of the automaton, and its flag is
up at the end exactly if no cell holds a second value (`Registration.ofAutomaton_eq`). While a state is
being filled, its rows are the last of the table, and the flag accounts for what is crowded in them
(`Registration.inState`).
-/

namespace CoolLang

theorem Array.modify_push_size {β : Type} (values : Array β) (last : β) (change : β → β) :
    (values.push last).modify values.size change = values.push (change last) := by
  apply Array.ext_getElem?
  intro place
  rw [Array.getElem?_modify, Array.getElem?_push, Array.getElem?_push]
  by_cases same : place = values.size
  · rw [if_pos same.symm, if_pos same, if_pos same, Option.map_some]
  · rw [if_neg (Ne.symm same), if_neg same, if_neg same]

namespace Registration

variable {α : Type} {grammar : Grammar α} {base : ParseTable} {free : Bool}
  {actions : TableRow Terminal TableAction} {gotos : TableRow Nonterminal StateId}

/-- A table while a state is being filled: the rows of the states before are finished. -/
def inState (base : ParseTable) (free : Bool) (actions : TableRow Terminal TableAction)
    (gotos : TableRow Nonterminal StateId) : Registration :=
  ⟨addRows base actions gotos, free && actions.crowded.isEmpty && gotos.crowded.isEmpty⟩

theorem registerAction_inState (terminal : Terminal) (action : TableAction) :
    (inState base free actions gotos).registerAction base.actions.size terminal action =
      inState base free (actions.register terminal action) gotos := by
  have table : (addRows base actions gotos).registerAction base.actions.size terminal action =
      addRows base (actions.register terminal action) gotos := by
    simp only [ParseTable.registerAction, addRows, Array.modify_push_size]
  have cell : (addRows base (actions.register terminal action) gotos).actionCell
      base.actions.size terminal = (actions.register terminal action).cell terminal := by
    simp only [ParseTable.actionCell, addRows, Array.getElem?_push_size, Option.getD_some]
  simp only [registerAction, inState, table, cell, TableRow.isEmpty_crowded_register]
  simp only [Bool.and_assoc, Bool.and_comm, Bool.and_left_comm]

theorem registerGoto_inState (even : base.gotos.size = base.actions.size)
    (nonterminal : Nonterminal) (next : StateId) :
    (inState base free actions gotos).registerGoto base.actions.size nonterminal next =
      inState base free actions (gotos.register nonterminal next) := by
  rw [← even]
  have table : (addRows base actions gotos).registerGoto base.gotos.size nonterminal next =
      addRows base actions (gotos.register nonterminal next) := by
    simp only [ParseTable.registerGoto, addRows, Array.modify_push_size]
  have cell : (addRows base actions (gotos.register nonterminal next)).gotoCell
      base.gotos.size nonterminal = (gotos.register nonterminal next).cell nonterminal := by
    simp only [ParseTable.gotoCell, addRows, Array.getElem?_push_size, Option.getD_some]
  simp only [registerGoto, inState, table, cell, TableRow.isEmpty_crowded_register]
  simp only [Bool.and_assoc]

theorem foldl_registerAction (entries : List (Terminal × TableAction)) :
    entries.foldl (fun current action =>
        current.registerAction base.actions.size action.1 action.2)
      (inState base free actions gotos) =
        inState base free (actions.registerAll entries) gotos := by
  induction entries generalizing actions with
  | nil => rfl
  | cons entry entries ih =>
      rw [List.foldl_cons, registerAction_inState, ih]
      rfl

theorem foldl_registerGoto (even : base.gotos.size = base.actions.size)
    (entries : List (Nonterminal × StateId)) :
    entries.foldl (fun current goto => current.registerGoto base.actions.size goto.1 goto.2)
      (inState base free actions gotos) =
        inState base free actions (gotos.registerAll entries) := by
  induction entries generalizing gotos with
  | nil => rfl
  | cons entry entries ih =>
      rw [List.foldl_cons, registerGoto_inState even, ih]
      rfl

theorem registerItem_eq (number : StateId) (state : State) (registration : Registration)
    (entry : Item × TerminalSet) :
    registerItem grammar number state registration entry =
      (ParseTable.prescribedGotos grammar state entry).foldl
        (fun current goto => current.registerGoto number goto.1 goto.2)
        ((ParseTable.prescribedActions grammar state entry).foldl
          (fun current action => current.registerAction number action.1 action.2)
          registration) := by
  unfold registerItem ParseTable.prescribedActions ParseTable.prescribedGotos
  cases entry.1.next? grammar with
  | none =>
      dsimp only
      split
      · rfl
      · rw [List.foldl_map]
        rfl
  | some symbol =>
      cases symbol with
      | terminal terminal =>
          dsimp only
          cases state.transition? (.terminal terminal) <;> rfl
      | nonterminal nonterminal =>
          dsimp only
          cases state.transition? (.nonterminal nonterminal) <;> rfl

theorem registerItem_inState (even : base.gotos.size = base.actions.size) (state : State)
    (entry : Item × TerminalSet) :
    registerItem grammar base.actions.size state (inState base free actions gotos) entry =
      inState base free
        (actions.registerAll (ParseTable.prescribedActions grammar state entry))
        (gotos.registerAll (ParseTable.prescribedGotos grammar state entry)) := by
  rw [registerItem_eq, foldl_registerAction, foldl_registerGoto even]

theorem foldl_registerItem (even : base.gotos.size = base.actions.size) (state : State)
    (items : ItemSet) :
    items.foldl (registerItem grammar base.actions.size state)
        (inState base free actions gotos) =
      inState base free
        (actions.registerAll (items.flatMap (ParseTable.prescribedActions grammar state)))
        (gotos.registerAll (items.flatMap (ParseTable.prescribedGotos grammar state))) := by
  induction items generalizing actions gotos with
  | nil => rfl
  | cons entry items ih =>
      rw [List.foldl_cons, registerItem_inState even, ih]
      simp only [List.flatMap_cons, TableRow.registerAll, List.foldl_append]

theorem registerState_eq (even : base.gotos.size = base.actions.size) (state : State) :
    registerState grammar ⟨base, free⟩ state =
      inState base free (ParseTable.actionRow grammar state)
        (ParseTable.gotoRow grammar state) := by
  have start : (⟨addRows base [] [], free⟩ : Registration) = inState base free [] [] := by
    simp [inState, TableRow.crowded]
  unfold registerState
  rw [start]
  exact foldl_registerItem even state state.items

/-- The flag of finished rows is whether the table has no crowded cell. -/
theorem inState_isLR1 : inState base base.isLR1 actions gotos =
    ⟨addRows base actions gotos, (addRows base actions gotos).isLR1⟩ := by
  simp only [inState, ParseTable.isLR1, addRows, Array.all_push]
  simp only [Bool.and_assoc, Bool.and_comm, Bool.and_left_comm]

/-- Whole states are added to a table whose flag accounts for it, and so it does afterwards. -/
theorem foldl_registerState (base : ParseTable) (states : List State)
    (even : base.gotos.size = base.actions.size) :
    ∃ table : ParseTable, states.foldl (registerState grammar) ⟨base, base.isLR1⟩ =
        ⟨table, table.isLR1⟩ ∧
      table.actions.toList = base.actions.toList ++ states.map (ParseTable.actionRow grammar) ∧
      table.gotos.toList = base.gotos.toList ++ states.map (ParseTable.gotoRow grammar) ∧
      table.productions = base.productions := by
  induction states generalizing base with
  | nil => exact ⟨base, rfl, (List.append_nil _).symm, (List.append_nil _).symm, rfl⟩
  | cons state states ih =>
      rw [List.foldl_cons, registerState_eq even, inState_isLR1]
      obtain ⟨table, folded, rows, rows', same⟩ := ih (addRows base _ _) (by
        simp only [addRows, Array.size_push, even])
      refine ⟨table, folded, ?_, ?_, same⟩
      · rw [rows, addRows, Array.toList_push, List.append_assoc]
        rfl
      · rw [rows', addRows, Array.toList_push, List.append_assoc]
        rfl

theorem ofAutomaton_eq (grammar : Grammar α) (automaton : Automaton) :
    ofAutomaton grammar automaton =
      ⟨ParseTable.ofAutomaton grammar automaton,
        (ParseTable.ofAutomaton grammar automaton).isLR1⟩ := by
  obtain ⟨table, folded, rows, rows', same⟩ := foldl_registerState
    ⟨#[], #[], (ParseTable.ofAutomaton grammar automaton).productions⟩ automaton.states.toList rfl
  have whole : table = ParseTable.ofAutomaton grammar automaton := by
    obtain ⟨actions, gotos, productions⟩ := table
    cases same
    simp only [ParseTable.ofAutomaton, ParseTable.mk.injEq, and_true]
    constructor
    · apply Array.toList_inj.mp
      rw [rows, Array.toList_map]
      rfl
    · apply Array.toList_inj.mp
      rw [rows', Array.toList_map]
      rfl
  have free : ParseTable.isLR1
      ⟨#[], #[], (ParseTable.ofAutomaton grammar automaton).productions⟩ = true := by
    simp [ParseTable.isLR1]
  rw [free] at folded
  rw [← whole]
  exact folded

end Registration

end CoolLang
