import CoolLang.Automaton.Basic
import CoolLang.ShiftReduce.Machine

/-!
Parse tables. A cell keeps every value registered for it, each once, and the first one is in effect.
`ParseTable.ofAutomaton` registers what the items of each state prescribe: a shift for a terminal
after the marker, a reduction for each lookahead of a complete item, acceptance for the complete
augmented item, and a goto for a nonterminal after the marker. A table without a cell of two values is
free of conflicts (`ParseTable.isLR1`).
-/

namespace CoolLang

abbrev TableAction := Action StateId RuleId

/-- The cells of one state, in the order in which they first got a value. A cell is never empty. -/
abbrev TableRow (κ ν : Type) := List (κ × List ν)

namespace TableRow

variable {κ ν : Type} [DecidableEq κ] [DecidableEq ν]

/-- All values registered under a key, in order. -/
def cell (row : TableRow κ ν) (key : κ) : List ν :=
  ((row.find? fun entry => entry.1 == key).map Prod.snd).getD []

/-- Adds a value to the cell of a key unless it is there. -/
def register (key : κ) (value : ν) : TableRow κ ν → TableRow κ ν
  | [] => [(key, [value])]
  | (known, values) :: row =>
      if known = key then
        (known, if value ∈ values then values else values ++ [value]) :: row
      else
        (known, values) :: register key value row

/-- The cells that hold more than one value. -/
def crowded (row : TableRow κ ν) : TableRow κ ν :=
  row.filter fun entry => entry.2.length > 1

end TableRow

structure ParseTable where
  /-- The actions by state. -/
  actions : Array (TableRow Terminal TableAction)
  /-- The gotos by state. -/
  gotos : Array (TableRow Nonterminal StateId)
  /-- The left-hand side and the length of the right-hand side of each rule. -/
  productions : Array (Nonterminal × Nat)

namespace ParseTable

variable {α : Type}

def registerAction (table : ParseTable) (state : StateId) (terminal : Terminal)
    (action : TableAction) : ParseTable :=
  { table with actions := table.actions.modify state (TableRow.register terminal action) }

def registerGoto (table : ParseTable) (state : StateId) (nonterminal : Nonterminal)
    (next : StateId) : ParseTable :=
  { table with gotos := table.gotos.modify state (TableRow.register nonterminal next) }

def actionCell (table : ParseTable) (state : StateId) (terminal : Terminal) : List TableAction :=
  (table.actions[state]?.getD []).cell terminal

def gotoCell (table : ParseTable) (state : StateId) (nonterminal : Nonterminal) : List StateId :=
  (table.gotos[state]?.getD []).cell nonterminal

/-- The action in effect. -/
def action? (table : ParseTable) (state : StateId) (terminal : Terminal) : Option TableAction :=
  (table.actionCell state terminal).head?

/-- The goto in effect. -/
def goto? (table : ParseTable) (state : StateId) (nonterminal : Nonterminal) : Option StateId :=
  (table.gotoCell state nonterminal).head?

/-- The actions that one item of a state prescribes, each with its terminal. -/
def prescribedActions (grammar : Grammar α) (state : State) (entry : Item × TerminalSet) :
    List (Terminal × TableAction) :=
  match entry.1.next? grammar with
  | none =>
      if entry.1.rule = RuleId.augmented then [(Terminal.eoi, .accept)]
      else entry.2.toList.map fun lookahead => (lookahead, .reduce entry.1.rule)
  | some (.terminal terminal) =>
      (state.transition? (.terminal terminal)).toList.map fun next => (terminal, .shift next)
  | some (.nonterminal _) => []

/-- The goto that one item of a state prescribes, with its nonterminal. -/
def prescribedGotos (grammar : Grammar α) (state : State) (entry : Item × TerminalSet) :
    List (Nonterminal × StateId) :=
  match entry.1.next? grammar with
  | some (.nonterminal nonterminal) =>
      (state.transition? (.nonterminal nonterminal)).toList.map fun next => (nonterminal, next)
  | _ => []

/-- The action row of a state: what its items prescribe, registered in the items' order. -/
def actionRow (grammar : Grammar α) (state : State) : TableRow Terminal TableAction :=
  (state.items.flatMap (prescribedActions grammar state)).foldl
    (fun row (terminal, action) => row.register terminal action) []

def gotoRow (grammar : Grammar α) (state : State) : TableRow Nonterminal StateId :=
  (state.items.flatMap (prescribedGotos grammar state)).foldl
    (fun row (nonterminal, next) => row.register nonterminal next) []

def ofAutomaton (grammar : Grammar α) (automaton : Automaton) : ParseTable where
  actions := automaton.states.map (actionRow grammar)
  gotos := automaton.states.map (gotoRow grammar)
  productions := (grammar.rules.map fun rule => (rule.left, rule.right.length)).toArray

/-- The table of the grammar's canonical automaton. -/
def generate (grammar : Grammar α) : ParseTable :=
  ofAutomaton grammar (Automaton.generate grammar (FirstSets.compute grammar))

/-- Whether no cell holds a second value. -/
def isLR1 (table : ParseTable) : Bool :=
  table.actions.all (fun row => row.crowded.isEmpty) &&
    table.gotos.all (fun row => row.crowded.isEmpty)

/-- The crowded action cells: state, terminal and all registered actions. -/
def conflicts (table : ParseTable) : List (StateId × Terminal × List TableAction) :=
  table.actions.toList.zipIdx.flatMap fun (row, state) =>
    row.crowded.map fun (terminal, actions) => (state, terminal, actions)

/-- The machine that the table drives. A rule that the grammar has not is never in a generated table;
it counts as an empty rule for `$start`. -/
def machine (table : ParseTable) : Machine StateId Terminal Nonterminal RuleId where
  initial := 0
  action := table.action?
  goto := table.goto?
  production rule := table.productions[rule]?.getD (Nonterminal.augmented, 0)

/-- A number of steps that no run which ends exceeds, on that many tokens. Between two shifts no state
comes to lie above itself, and no place of the stack holds the same state twice above an unchanged rest,
for either would repeat forever. So at most as many places are filled as there are states, each with at
most as many states in turn. -/
def stepLimit (table : ParseTable) (tokens : Nat) : Nat :=
  (tokens + 1) * Nat.pow (table.actions.size + 2) (table.actions.size + 4)

/-- Runs the table on the tokens; `none` where a conflict lets it reduce forever. -/
def parse {θ : Type} (table : ParseTable) (terminalOf : θ → Terminal) (tokens : List θ) :
    Option (Except (ParseError StateId θ) (Derivation RuleId)) :=
  table.machine.run terminalOf (table.stepLimit tokens.length) tokens

def actionText (grammar : Grammar α) : TableAction → String
  | .shift next => "shift(" ++ Automaton.stateText next ++ ")"
  | .reduce rule => "reduce(" ++ ((grammar.rule? rule).elim "" grammar.ruleText) ++ ")"
  | .accept => "accept"

/-- All actions of a cell; those after the first are marked as ignored. -/
def actionLines (grammar : Grammar α) (cell : Terminal × List TableAction) : String :=
  String.join (cell.2.zipIdx.map fun (action, place) =>
    "- " ++ grammar.terminalName cell.1 ++ " => " ++ actionText grammar action ++
      (if place = 0 then "\n" else "  (ignored)\n"))

def gotoLines (grammar : Grammar α) (cell : Nonterminal × List StateId) : String :=
  String.join (cell.2.map fun next =>
    "- " ++ grammar.nonterminalName cell.1 ++ " => goto(" ++ Automaton.stateText next ++ ")\n")

def stateListing (grammar : Grammar α) (table : ParseTable) (state : StateId) : String :=
  "#### State " ++ Automaton.stateText state ++ "\n## actions\n" ++
    String.join ((table.actions[state]?.getD []).map (actionLines grammar)) ++
    "## gotos\n" ++ String.join ((table.gotos[state]?.getD []).map (gotoLines grammar))

/-- The listings of all states, with an empty line between two of them. -/
def listing (grammar : Grammar α) (table : ParseTable) : String :=
  "\n".intercalate ((List.range table.actions.size).map (stateListing grammar table))

end ParseTable

end CoolLang
