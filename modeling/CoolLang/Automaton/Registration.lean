import CoolLang.Automaton.Table

/-!
Filling a table one value after another. Whoever fills a table so keeps a flag beside it
(`Registration`): it goes down as soon as a cell that just got a value holds another one too, and it
never goes up again. The states are taken in order, and in each state the items.
-/

namespace CoolLang

structure Registration where
  table : ParseTable
  /-- Whether each cell held just one value whenever it was given one. -/
  free : Bool

namespace Registration

variable {α : Type}

def registerAction (registration : Registration) (state : StateId) (terminal : Terminal)
    (action : TableAction) : Registration :=
  let table := registration.table.registerAction state terminal action
  ⟨table, registration.free && (table.actionCell state terminal).length == 1⟩

def registerGoto (registration : Registration) (state : StateId) (nonterminal : Nonterminal)
    (next : StateId) : Registration :=
  let table := registration.table.registerGoto state nonterminal next
  ⟨table, registration.free && (table.gotoCell state nonterminal).length == 1⟩

/-- Registers what one item of a state prescribes. -/
def registerItem (grammar : Grammar α) (number : StateId) (state : State)
    (registration : Registration) (entry : Item × TerminalSet) : Registration :=
  match entry.1.next? grammar with
  | none =>
      if entry.1.rule = RuleId.augmented then
        registration.registerAction number Terminal.eoi .accept
      else
        entry.2.toList.foldl
          (fun current lookahead =>
            current.registerAction number lookahead (.reduce entry.1.rule))
          registration
  | some (.terminal terminal) =>
      match state.transition? (.terminal terminal) with
      | some next => registration.registerAction number terminal (.shift next)
      | none => registration
  | some (.nonterminal nonterminal) =>
      match state.transition? (.nonterminal nonterminal) with
      | some next => registration.registerGoto number nonterminal next
      | none => registration

/-- Adds a state with the given rows to a table. -/
def addRows (table : ParseTable) (actions : TableRow Terminal TableAction)
    (gotos : TableRow Nonterminal StateId) : ParseTable :=
  { table with actions := table.actions.push actions, gotos := table.gotos.push gotos }

/-- Adds a state and registers what its items prescribe. -/
def registerState (grammar : Grammar α) (registration : Registration) (state : State) :
    Registration :=
  state.items.foldl (registerItem grammar registration.table.actions.size state)
    ⟨addRows registration.table [] [], registration.free⟩

def ofAutomaton (grammar : Grammar α) (automaton : Automaton) : Registration :=
  automaton.states.toList.foldl (registerState grammar)
    ⟨⟨#[], #[], (ParseTable.ofAutomaton grammar automaton).productions⟩, true⟩

end Registration

end CoolLang
