import CoolLang.Hierarchy.Basic
import CoolLang.Program.Basic
import CoolLang.Scope.Cursor

/-!
What inference keeps as it goes: the signatures and the variables, which learn from what they are used
with, and a cursor that enters every scope again in the order of creation. Once a walk and the tree
differ, the first difference is kept and nothing is changed any more.
-/

namespace CoolLang

structure InferenceState where
  hierarchy : Hierarchy
  tree : ScopeTree
  cursor : Cursor
  /-- Whether the present walk has learned anything. -/
  changed : Bool
  drift : Option ScopeDrift

abbrev Inference := StateM InferenceState

namespace Inference

/-- Changes the state, unless walk and tree differ already. -/
def advance (change : InferenceState → InferenceState) : Inference Unit :=
  modify fun state => if state.drift.isSome then state else change state

/-- Makes a step with the cursor. -/
def moveCursor (step : ScopeTree → Cursor → Except ScopeDrift Cursor) : Inference Unit :=
  advance fun state =>
    match step state.tree state.cursor with
    | .ok cursor => { state with cursor := cursor }
    | .error drift => { state with drift := some drift }

/-- Enters the next child of the current scope. -/
def openScope : Inference ScopeId := do
  moveCursor Cursor.enter
  return (← get).cursor.current

/-- Leaves the current scope. -/
def closeScope : Inference Unit :=
  moveCursor Cursor.leave

/-- Starts a walk at the root. -/
def beginWalk : Inference Unit :=
  advance fun state => { state with cursor := .initial, changed := false }

/-- Ends a walk, which has to be back at the root with every scope visited. -/
def endWalk : Inference Unit :=
  advance fun state =>
    match state.cursor.finish state.tree with
    | .ok _ => state
    | .error drift => { state with drift := some drift }

/-- The variable that a name means in the current scope. -/
def lookUp (name : String) : Inference (Option VariableId) := do
  let state ← get
  return state.tree.find? state.cursor.current name

def typeOf (id : VariableId) : Inference TypeId := do
  return ((← get).tree.variableAt id).type

/-- Lets a variable learn. -/
def updateVariable (id : VariableId) (learn : Hierarchy → Variable → Variable) : Inference Unit :=
  advance fun state =>
    let before := state.tree.variableAt id
    let after := learn state.hierarchy before
    if after = before then state
    else { state with tree := state.tree.setVariable id after, changed := true }

/-- Observes a type that a use of a variable expects. -/
def observeHint (id : VariableId) (type : TypeId) : Inference Unit :=
  updateVariable id fun _ info => info.observeHint type

/-- Observes the type of a value that flows into a variable. -/
def observeValue (id : VariableId) (type : TypeId) : Inference Unit :=
  updateVariable id fun hierarchy info => info.observeValue hierarchy.union type

/-- Lets the signature of a method learn. -/
def updateMethod (owner : TypeId) (name : String) (learn : Hierarchy → Method → Method) :
    Inference Unit :=
  advance fun state =>
    match (state.hierarchy.info owner).method? name with
    | none => state
    | some before =>
        let after := learn state.hierarchy before
        if after = before then state
        else { state with
          hierarchy := state.hierarchy.update owner fun info => info.updateMethod name fun _ => after
          changed := true }

/-- Lets one parameter in the signature of a method learn. -/
def updateParam (owner : TypeId) (name : String) (place : Nat)
    (learn : Hierarchy → Variable → Variable) : Inference Unit :=
  updateMethod owner name fun hierarchy method =>
    { method with params := method.params.modify place (learn hierarchy) }

/-- Observes the type of a value that a method returns. -/
def observeResult (owner : TypeId) (name : String) (type : TypeId) : Inference Unit :=
  updateMethod owner name fun hierarchy method =>
    { method with result := method.result.observeValue hierarchy.union type }

/-- Brings together what the variable and the signature know about one parameter. -/
def mergeParam (owner : TypeId) (name : String) (place : Nat) (id : VariableId) :
    Inference Unit := do
  let method := ((← get).hierarchy.info owner).method? name
  match method.bind fun method => method.params[place]? with
  | none => return
  | some known =>
      updateVariable id fun hierarchy info => info.merge hierarchy.union known
      let info := (← get).tree.variableAt id
      updateParam owner name place fun hierarchy known => known.merge hierarchy.union info

/-- Brings together what the variables and the signature know about the parameters from some place
on. -/
def mergeParams (owner : TypeId) (name : String) : Nat → List VariableId → Inference Unit
  | _, [] => return
  | place, id :: ids => do
      mergeParam owner name place id
      mergeParams owner name (place + 1) ids

/-- Attributes with the types that have been inferred for the variables of their places. -/
def withInferredTypes (tree : ScopeTree) : List Attribute → List VariableId → List Attribute
  | attr :: attributes, id :: ids =>
      let info := tree.variableAt id
      let attr := if info.inferred then { attr with type := info.type } else attr
      attr :: withInferredTypes tree attributes ids
  | attributes, _ => attributes

/-- Gives the attributes of a class the types inferred for their variables, which are the first locals
of the class scope. -/
def recordAttributes (owner : TypeId) (scope : ScopeId) : Inference Unit :=
  advance fun state =>
    let before := (state.hierarchy.info owner).attributes
    let after := withInferredTypes state.tree before (state.tree.locals scope)
    if after = before then state
    else { state with
      hierarchy := state.hierarchy.update owner fun info => { info with attributes := after }
      changed := true }

/-- The note of an expression whose type has been found. -/
def noted (note : Note) (type : TypeId) : Inference Note := do
  return if (← get).drift.isSome then note else note.typed type

end Inference

end CoolLang
