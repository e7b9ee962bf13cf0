import CoolLang.Automaton.Closure

/-!
The canonical LR(1) automaton. Its states are the closures of kernels: state 0 that of the augmented
item, and each transition leads to the state whose kernel is the advanced items. States are numbered
as they are discovered, breadth first, and no two of them have the same kernel.
-/

namespace CoolLang

/-- A state's place in the order of discovery. -/
abbrev StateId := Nat

structure State where
  kernel : ItemSet
  /-- The closure of the kernel. -/
  items : ItemSet
  /-- The successors, in the order of the first items that lead there. -/
  transitions : List (Symbol × StateId)

namespace State

def transition? (state : State) (symbol : Symbol) : Option StateId :=
  (state.transitions.find? fun entry => entry.1 == symbol).map Prod.snd

end State

structure Automaton where
  states : Array State

/-- An unfinished search. The completed states are the first of the discovered kernels. -/
structure Exploration where
  kernels : Array ItemSet
  completed : Array State

namespace Exploration

variable {α : Type}

/-- The item of the augmented rule before anything is read, to be followed by the end of input. -/
def initialKernel : ItemSet :=
  [(⟨RuleId.augmented, 0⟩, .singleton Terminal.eoi)]

def initial : Exploration :=
  ⟨#[initialKernel], #[]⟩

/-- The number of the state with the given kernel, which is discovered if it is new. -/
def numberOf (kernels : Array ItemSet) (kernel : ItemSet) : StateId × Array ItemSet :=
  match kernels.findIdx? fun known => known == kernel with
  | some state => (state, kernels)
  | none => (kernels.size, kernels.push kernel)

/-- The transitions over the listed symbols, and the kernels known afterwards. -/
def connect (grammar : Grammar α) (items : ItemSet) :
    List Symbol → Array ItemSet → List (Symbol × StateId) × Array ItemSet
  | [], kernels => ([], kernels)
  | symbol :: symbols, kernels =>
      let (state, kernels) := numberOf kernels (items.advanceOver grammar symbol)
      let (transitions, kernels) := connect grammar items symbols kernels
      ((symbol, state) :: transitions, kernels)

/-- Completes the state with the given kernel, the first one that is not completed yet. -/
def complete (grammar : Grammar α) (firsts : FirstSets) (exploration : Exploration)
    (kernel : ItemSet) : Exploration :=
  let items := kernel.closure grammar firsts
  let (transitions, kernels) :=
    connect grammar items (items.nextSymbols grammar) exploration.kernels
  { kernels := kernels
    completed := exploration.completed.push ⟨kernel, items, transitions⟩ }

/-- Completes discovered states in order, at most `states` of them. -/
def run (grammar : Grammar α) (firsts : FirstSets) : Nat → Exploration → Exploration
  | 0, exploration => exploration
  | states + 1, exploration =>
      match exploration.kernels[exploration.completed.size]? with
      | none => exploration
      | some kernel => run grammar firsts states (exploration.complete grammar firsts kernel)

end Exploration

namespace Automaton

variable {α : Type}

/-- The number of items, lookaheads aside. -/
def itemCount (grammar : Grammar α) : Nat :=
  grammar.rules.foldr (fun rule count => count + rule.right.length + 1) 0

/-- No grammar has more kernels than this: a kernel gives each item no lookahead set or one. -/
def stateLimit (grammar : Grammar α) : Nat :=
  Nat.pow 2 ((grammar.terminals.length + 1) * itemCount grammar)

def generate (grammar : Grammar α) (firsts : FirstSets) : Automaton :=
  ⟨(Exploration.initial.run grammar firsts (stateLimit grammar)).completed⟩

def transition? (automaton : Automaton) (state : StateId) (symbol : Symbol) : Option StateId :=
  automaton.states[state]?.bind (·.transition? symbol)

/-- State numbers are written with at least two digits. -/
def stateText (state : StateId) : String :=
  if state < 10 then "0" ++ toString state else toString state

def itemLine (grammar : Grammar α) (entry : Item × TerminalSet) : String :=
  "- " ++ entry.1.text grammar ++ "  [" ++
    " ".intercalate (entry.2.toList.map grammar.terminalName) ++ "]\n"

def stateListing (grammar : Grammar α) (number : StateId) (state : State) : String :=
  let transitions := state.transitions.map fun (symbol, next) =>
    "- " ++ grammar.symbolName symbol ++ " => " ++ stateText next ++ "\n"
  "#### State " ++ stateText number ++ "\n## item_sets\n" ++
    String.join (state.items.map (itemLine grammar)) ++
    "## transitions\n" ++ String.join transitions

/-- The listings of all states, with an empty line between two of them. -/
def listing (grammar : Grammar α) (automaton : Automaton) : String :=
  "\n".intercalate (automaton.states.toList.zipIdx.map fun (state, number) =>
    stateListing grammar number state)

end Automaton

end CoolLang
