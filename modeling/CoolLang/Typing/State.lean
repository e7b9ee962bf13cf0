import CoolLang.Scope.Cursor

/-!
What typing a program keeps as it goes: the scope tree and the diagnostics. The first time, scopes are
created as they are opened. Later a cursor replays their creation on the finished tree, declarations
have the types that the tree holds, and the first difference between walk and tree is kept.
-/

namespace CoolLang

structure TypingState where
  tree : ScopeTree
  /-- Where a replay is; none while the tree is built. -/
  cursor : Option Cursor
  drift : Option ScopeDrift
  found : Array Diagnostic

abbrev Typing := StateM TypingState

namespace Typing

/-- Keeps the first difference between a replay and its tree. -/
def noteDrift (drift : ScopeDrift) : Typing Unit :=
  modify fun state => { state with drift := some (state.drift.getD drift) }

/-- Moves into the next child of `parent`: a new one, or the one that the replay has come to. Where
the replay finds none, the walk goes on in `parent` itself. -/
def openScope (parent : ScopeId) : Typing ScopeId := do
  let state ← get
  match state.cursor with
  | none =>
      let (scope, tree) := state.tree.createChild parent
      set { state with tree := tree }
      return scope
  | some cursor =>
      match cursor.enter state.tree with
      | .ok cursor =>
          set { state with cursor := some cursor }
          return cursor.current
      | .error drift =>
          noteDrift drift
          return parent

/-- Leaves the innermost open scope. -/
def closeScope : Typing Unit := do
  let state ← get
  match state.cursor with
  | none => return
  | some cursor =>
      match cursor.leave state.tree with
      | .ok cursor => set { state with cursor := some cursor }
      | .error drift => noteDrift drift

/-- Declares a variable as the local of that place in a scope. Returns its type: the declared one, or
in a replay the one that the tree holds by now. -/
def declare (scope : ScopeId) (place : Nat) (info : Variable) : Typing TypeId := do
  let state ← get
  match state.cursor with
  | none =>
      set { state with tree := (state.tree.define scope info).2 }
      return info.type
  | some _ =>
      match (state.tree.locals scope)[place]? with
      | some id => return (state.tree.variableAt id).type
      | none => return info.type

/-- The variable that a name means in a scope. -/
def lookUp (scope : ScopeId) (name : String) : Typing (Option Variable) := do
  let tree := (← get).tree
  return (tree.find? scope name).map tree.variableAt

def report (position : Position) (problem : Problem) : Typing Unit :=
  modify fun state => { state with found := state.found.push ⟨position, problem⟩ }

end Typing

end CoolLang
