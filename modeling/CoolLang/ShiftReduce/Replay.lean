import CoolLang.ShiftReduce.Machine

/-!
Replaying a derivation. A `Reducer` says what a token is worth and what a rule makes of the values of
its right-hand side; `Machine.replay` carries out the recorded steps on a stack of values and returns
the one value that is left. A reducer may also keep a state (`StatefulReducer`): every call sees the state
that the call before has left, so it matters which calls are made and in which order, and a logged reducer
writes them down (`StatefulReducer.logged`). `Machine.replayWith` carries out a derivation for such a
reducer, one operation after another; `Machine.replay` covers a reducer without a state.
-/

namespace CoolLang

/-- Values `υ` for tokens `θ` and rules `ρ`; either can fail with an `ε`. -/
structure Reducer (θ ρ υ ε : Type) where
  shift : θ → Except ε υ
  /-- The arguments are in the order of the right-hand side. -/
  reduce : ρ → List υ → Except ε υ

inductive ReplayError (ε : Type) where
  | action (error : ε)
  | tokensExhausted
  | reductionsExhausted
  | stackUnderflow
  | unexpectedRoots (count : Nat)
deriving DecidableEq

namespace ReplayError

/-- The wording of an error; `actionText` writes the error of a reducer. -/
def message {ε : Type} (actionText : ε → String) : ReplayError ε → String
  | action error => "reduction action failed: " ++ actionText error
  | tokensExhausted => "the derivation shifts more tokens than given"
  | reductionsExhausted => "the derivation has fewer reductions than reduce operations"
  | stackUnderflow => "not enough values on the stack for a reduction"
  | unexpectedRoots count => "expected exactly one root value, found " ++ toString count

end ReplayError

namespace Machine

variable {σ τ ν ρ θ υ ε : Type}

/-- Carries out the operations, with the tokens, rules and values (latest first) still at hand. -/
def replayFrom (machine : Machine σ τ ν ρ) (reducer : Reducer θ ρ υ ε) :
    List Operation → List θ → List ρ → List υ → Except (ReplayError ε) υ
  | [], _, _, values =>
      match values with
      | [root] => .ok root
      | values => .error (.unexpectedRoots values.length)
  | .shift :: operations, tokens, rules, values =>
      match tokens with
      | [] => .error .tokensExhausted
      | token :: tokens =>
          match reducer.shift token with
          | .error error => .error (.action error)
          | .ok value => replayFrom machine reducer operations tokens rules (value :: values)
  | .reduce :: operations, tokens, rules, values =>
      match rules with
      | [] => .error .reductionsExhausted
      | rule :: rules =>
          let count := (machine.production rule).2
          let arguments := values.take count
          if arguments.length < count then .error .stackUnderflow
          else
            match reducer.reduce rule arguments.reverse with
            | .error error => .error (.action error)
            | .ok value =>
                replayFrom machine reducer operations tokens rules (value :: values.drop count)

def replay (machine : Machine σ τ ν ρ) (reducer : Reducer θ ρ υ ε) (derivation : Derivation ρ)
    (tokens : List θ) : Except (ReplayError ε) υ :=
  replayFrom machine reducer derivation.operations tokens derivation.reductions []

end Machine

/-- A reducer with a state `ς`, which a call may change even if it fails. -/
structure StatefulReducer (ς θ ρ υ ε : Type) where
  shift : θ → ς → Except ε υ × ς
  /-- The arguments are in the order of the right-hand side. -/
  reduce : ρ → List υ → ς → Except ε υ × ς

/-- What a replay still has at hand; the latest value is the first. -/
structure Workbench (θ ρ υ : Type) where
  tokens : List θ
  rules : List ρ
  values : List υ

inductive ReducerCall (θ ρ υ : Type) where
  | shift (token : θ)
  | reduce (rule : ρ) (arguments : List υ)

variable {σ τ ν ρ θ υ ε ς : Type}

namespace ReducerCall

def operation : ReducerCall θ ρ υ → Operation
  | shift _ => .shift
  | reduce _ _ => .reduce

def token? : ReducerCall θ ρ υ → Option θ
  | shift token => some token
  | reduce _ _ => none

def rule? : ReducerCall θ ρ υ → Option ρ
  | shift _ => none
  | reduce rule _ => some rule

end ReducerCall

def Reducer.stateless (reducer : Reducer θ ρ υ ε) : StatefulReducer Unit θ ρ υ ε where
  shift token state := (reducer.shift token, state)
  reduce rule arguments state := (reducer.reduce rule arguments, state)

/-- The same reducer, with a list of all calls made so far in its state. -/
def StatefulReducer.logged (reducer : StatefulReducer ς θ ρ υ ε) :
    StatefulReducer (ς × List (ReducerCall θ ρ υ)) θ ρ υ ε where
  shift token state :=
    let (result, inner) := reducer.shift token state.1
    (result, inner, state.2 ++ [.shift token])
  reduce rule arguments state :=
    let (result, inner) := reducer.reduce rule arguments state.1
    (result, inner, state.2 ++ [.reduce rule arguments])

/-- Puts the value that a call has given on top of the others. -/
def Workbench.put (bench : Workbench θ ρ υ) :
    Except ε υ × ς → Except (ReplayError ε) (Workbench θ ρ υ) × ς
  | (.ok value, state) => (.ok { bench with values := value :: bench.values }, state)
  | (.error error, state) => (.error (.action error), state)

/-- The one value that is left at the end. -/
def Workbench.root :
    Except (ReplayError ε) (Workbench θ ρ υ) → Except (ReplayError ε) υ
  | .ok ⟨_, _, [root]⟩ => .ok root
  | .ok ⟨_, _, values⟩ => .error (.unexpectedRoots values.length)
  | .error error => .error error

namespace Machine

def operate (machine : Machine σ τ ν ρ) (reducer : StatefulReducer ς θ ρ υ ε) :
    Operation → Workbench θ ρ υ → ς → Except (ReplayError ε) (Workbench θ ρ υ) × ς
  | .shift, bench, state =>
      match bench.tokens with
      | [] => (.error .tokensExhausted, state)
      | token :: tokens => { bench with tokens := tokens }.put (reducer.shift token state)
  | .reduce, bench, state =>
      match bench.rules with
      | [] => (.error .reductionsExhausted, state)
      | rule :: rules =>
          let count := (machine.production rule).2
          if bench.values.length < count then (.error .stackUnderflow, state)
          else
            { bench with rules := rules, values := bench.values.drop count }.put
              (reducer.reduce rule (bench.values.take count).reverse state)

/-- Carries out operations until one fails. -/
def carryOut (machine : Machine σ τ ν ρ) (reducer : StatefulReducer ς θ ρ υ ε) :
    List Operation → Workbench θ ρ υ → ς → Except (ReplayError ε) (Workbench θ ρ υ) × ς
  | [], bench, state => (.ok bench, state)
  | operation :: operations, bench, state =>
      match machine.operate reducer operation bench state with
      | (.ok bench, state) => carryOut machine reducer operations bench state
      | (.error error, state) => (.error error, state)

def replayWith (machine : Machine σ τ ν ρ) (reducer : StatefulReducer ς θ ρ υ ε)
    (derivation : Derivation ρ) (tokens : List θ) (state : ς) : Except (ReplayError ε) υ × ς :=
  let (result, state) :=
    machine.carryOut reducer derivation.operations ⟨tokens, derivation.reductions, []⟩ state
  (Workbench.root result, state)

/-- The calls that a replay makes, in order. -/
def replayCalls (machine : Machine σ τ ν ρ) (reducer : StatefulReducer ς θ ρ υ ε)
    (derivation : Derivation ρ) (tokens : List θ) (state : ς) : List (ReducerCall θ ρ υ) :=
  (machine.replayWith reducer.logged derivation tokens (state, [])).2.2

end Machine

end CoolLang
