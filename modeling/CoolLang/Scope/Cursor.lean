import CoolLang.Scope.Basic

/-!
Cursors: a walk over an existing scope tree that has to enter every scope exactly once, in the order of
creation. A step that would break the order is refused with the reason and leaves the cursor where it
is.
-/

namespace CoolLang

/-- How a walk and the tree it is over can differ. -/
inductive ScopeDrift where
  | missingChild (parent : ScopeId)
  | indexMismatch (scope : ScopeId) (expected found : Nat)
  | unvisitedChildren (scope : ScopeId) (visited total : Nat)
  | unbalanced
deriving DecidableEq

namespace ScopeDrift

def message : ScopeDrift → String
  | missingChild parent => "scope " ++ ScopeTree.scopeText parent ++ " has no child left to enter"
  | indexMismatch scope expected found =>
      "scope " ++ ScopeTree.scopeText scope ++ " was created as child " ++ toString expected ++
        " but entered as child " ++ toString found
  | unvisitedChildren scope visited total =>
      "left scope " ++ ScopeTree.scopeText scope ++ " after visiting " ++ toString visited ++
        " of its " ++ toString total ++ " children"
  | unbalanced => "left the root scope"

end ScopeDrift

/-- A scope that the walk is in, and how many of its children it has entered. -/
structure CursorStep where
  scope : ScopeId
  visited : Nat
deriving DecidableEq

/-- The scopes that the walk is in: the innermost one, and those around it from there outward. -/
structure Cursor where
  innermost : CursorStep
  outer : List CursorStep
  /-- All scopes that were entered so far, in order. -/
  entered : Array ScopeId
deriving DecidableEq

namespace Cursor

/-- At the root, with nothing visited. -/
def initial : Cursor :=
  ⟨⟨ScopeTree.root, 0⟩, [], #[]⟩

def current (cursor : Cursor) : ScopeId :=
  cursor.innermost.scope

/-- Enters the next child of the current scope. -/
def enter (tree : ScopeTree) (cursor : Cursor) : Except ScopeDrift Cursor :=
  let ⟨scope, visited⟩ := cursor.innermost
  match (tree.children scope)[visited]? with
  | none => .error (.missingChild scope)
  | some child =>
      if tree.index child = visited then
        .ok ⟨⟨child, 0⟩, ⟨scope, visited + 1⟩ :: cursor.outer, cursor.entered.push child⟩
      else
        .error (.indexMismatch child (tree.index child) visited)

/-- Refuses to go on while the current scope has children that were not entered. -/
def checkComplete (tree : ScopeTree) (cursor : Cursor) : Except ScopeDrift Unit :=
  let ⟨scope, visited⟩ := cursor.innermost
  let total := (tree.children scope).length
  if visited = total then .ok () else .error (.unvisitedChildren scope visited total)

/-- Returns to the scope around the current one. -/
def leave (tree : ScopeTree) (cursor : Cursor) : Except ScopeDrift Cursor :=
  match cursor.outer with
  | [] => .error .unbalanced
  | around :: outer => (cursor.checkComplete tree).map fun _ => ⟨around, outer, cursor.entered⟩

/-- Ends the walk at the root. -/
def finish (tree : ScopeTree) (cursor : Cursor) : Except ScopeDrift Unit :=
  match cursor.outer with
  | [] => cursor.checkComplete tree
  | _ :: _ => .error .unbalanced

end Cursor

end CoolLang
