/-!
Shift-reduce machines. A machine reads tokens from left to right and keeps a stack of states; a table
of actions and gotos, about which nothing is assumed here, decides each step. `Machine.step` makes one
step, `Machine.run` as many as it is allowed to, and a run that accepts leaves a record of what it did
(`Derivation`).
-/

namespace CoolLang

inductive Action (σ ρ : Type) where
  | shift (next : σ)
  | reduce (rule : ρ)
  | accept
deriving DecidableEq

/-- A table over states `σ`, terminals `τ`, nonterminals `ν` and rules `ρ`. -/
structure Machine (σ τ ν ρ : Type) where
  initial : σ
  /-- What to do in a state before a terminal; `none` where the terminal is unexpected. -/
  action : σ → τ → Option (Action σ ρ)
  /-- Where to go from a state with a nonterminal that a reduction has made. -/
  goto : σ → ν → Option σ
  /-- The left-hand side of a rule and the length of its right-hand side. -/
  production : ρ → ν × Nat

inductive Operation where
  | shift
  | reduce
deriving DecidableEq

/-- The rules of an accepting run in the order of reduction, and its steps. -/
structure Derivation (ρ : Type) where
  reductions : List ρ
  operations : List Operation
deriving DecidableEq

inductive ParseError (σ θ : Type) where
  | unexpectedToken (token : θ) (position : Nat) (state : σ)
  | unexpectedEnd
  | missingGoto (state : σ)
  | emptyStack
deriving DecidableEq

namespace ParseError

variable {σ θ : Type}

/-- The wording of an error; `stateText` writes a state. -/
def message (stateText : σ → String) : ParseError σ θ → String
  | unexpectedToken _ position _ => "unexpected token at position " ++ toString position
  | unexpectedEnd => "unexpected EOI"
  | missingGoto state => "missing goto entry in state " ++ stateText state
  | emptyStack => "empty state stack"

end ParseError

/-- A running machine. Its stack is never empty: `state` is on top of `below`. -/
structure Configuration (σ θ ρ : Type) where
  state : σ
  below : List σ
  /-- The tokens not read yet; the first is the lookahead. -/
  rest : List θ
  /-- How many tokens have been read. -/
  position : Nat
  /-- The rules reduced so far, latest first. -/
  reductions : List ρ
  /-- The steps made so far, latest first. -/
  operations : List Operation

inductive StepResult (σ θ ρ : Type) where
  | next (configuration : Configuration σ θ ρ)
  | accepted (derivation : Derivation ρ)
  | failed (error : ParseError σ θ)

namespace Configuration

variable {σ θ ρ : Type}

/-- The record of the steps made so far. -/
def derivation (configuration : Configuration σ θ ρ) : Derivation ρ :=
  ⟨configuration.reductions.reverse, configuration.operations.reverse⟩

/-- Reads the lookahead and goes to `next`. -/
def shift (configuration : Configuration σ θ ρ) (rest : List θ) (next : σ) :
    Configuration σ θ ρ :=
  { configuration with
    state := next
    below := configuration.state :: configuration.below
    rest := rest
    position := configuration.position + 1
    operations := .shift :: configuration.operations }

/-- Records the reduction of `rule`, which uncovered `top` above `below` and leads on to `next`. -/
def reduce (configuration : Configuration σ θ ρ) (rule : ρ) (top : σ) (below : List σ) (next : σ) :
    Configuration σ θ ρ :=
  { configuration with
    state := next
    below := top :: below
    reductions := rule :: configuration.reductions
    operations := .reduce :: configuration.operations }

end Configuration

namespace Machine

variable {σ τ ν ρ θ : Type}

def start (machine : Machine σ τ ν ρ) (tokens : List θ) : Configuration σ θ ρ :=
  ⟨machine.initial, [], tokens, 0, [], []⟩

/-- One step; `terminalOf` says which terminal a token is. A reduction takes one state off the stack
for each symbol of the right-hand side, and fails when that would take the initial state. -/
def step (machine : Machine σ τ ν ρ) (terminalOf : θ → τ) (configuration : Configuration σ θ ρ) :
    StepResult σ θ ρ :=
  match configuration.rest with
  | [] => .failed .unexpectedEnd
  | token :: rest =>
      match machine.action configuration.state (terminalOf token) with
      | none => .failed (.unexpectedToken token configuration.position configuration.state)
      | some .accept => .accepted configuration.derivation
      | some (.shift next) => .next (configuration.shift rest next)
      | some (.reduce rule) =>
          let (left, count) := machine.production rule
          match (configuration.state :: configuration.below).drop count with
          | [] => .failed .emptyStack
          | top :: below =>
              match machine.goto top left with
              | none => .failed (.missingGoto top)
              | some next => .next (configuration.reduce rule top below next)

/-- Makes at most `steps` steps; `none` where the machine has not stopped by then. -/
def runFrom (machine : Machine σ τ ν ρ) (terminalOf : θ → τ) :
    Nat → Configuration σ θ ρ → Option (Except (ParseError σ θ) (Derivation ρ))
  | 0, _ => none
  | steps + 1, configuration =>
      match machine.step terminalOf configuration with
      | .next configuration => runFrom machine terminalOf steps configuration
      | .accepted derivation => some (.ok derivation)
      | .failed error => some (.error error)

def run (machine : Machine σ τ ν ρ) (terminalOf : θ → τ) (steps : Nat) (tokens : List θ) :
    Option (Except (ParseError σ θ) (Derivation ρ)) :=
  machine.runFrom terminalOf steps (machine.start tokens)

end Machine

end CoolLang
