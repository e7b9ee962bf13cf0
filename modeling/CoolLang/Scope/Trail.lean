import CoolLang.Scope.Nest

/-!
Walks that change their cursor in place. A `Trail` is all that such a cursor keeps. Its steps change it bit by bit,
and one that is refused leaves what has been changed before. `Trail.follow` makes steps in order, goes on after a
refused one, and keeps the answers.
-/

namespace CoolLang

/-- The scopes that a walk is in, the innermost one first. -/
abbrev Trail := List CursorStep

/-- Steps of a walk. One that is refused leaves the changes that were made before. -/
abbrev Walking (α : Type) := ExceptT ScopeDrift (StateM Trail) α

namespace Trail

def initial : Trail :=
  [⟨ScopeTree.root, 0⟩]

def current (trail : Trail) : ScopeId :=
  trail.head?.elim ScopeTree.root CursorStep.scope

/-- Counts the next child of the current scope as visited, and goes into it. -/
def enter (tree : ScopeTree) : Walking ScopeId := do
  match ← get with
  | [] => throw .unbalanced
  | ⟨scope, visited⟩ :: outer =>
      let some child := (tree.children scope)[visited]? | throw (.missingChild scope)
      if tree.index child ≠ visited then throw (.indexMismatch child (tree.index child) visited)
      set (⟨scope, visited + 1⟩ :: outer)
      modify fun around => ⟨child, 0⟩ :: around
      return child

/-- Refuses to go on while the current scope has children that were not entered. -/
def checkComplete (tree : ScopeTree) : Walking Unit := do
  match ← get with
  | [] => throw .unbalanced
  | ⟨scope, visited⟩ :: _ =>
      let total := (tree.children scope).length
      if visited ≠ total then throw (.unvisitedChildren scope visited total)

def leave (tree : ScopeTree) : Walking Unit := do
  if (← get).length ≤ 1 then throw .unbalanced
  checkComplete tree
  modify List.tail

/-- Ends the walk at the root. -/
def finish (tree : ScopeTree) : Walking Unit := do
  if (← get).length ≠ 1 then throw .unbalanced
  checkComplete tree

/-- Makes one step. It is answered with the scope that was entered; leaving enters none. -/
def step (tree : ScopeTree) : ScopeMark → Walking (Option ScopeId)
  | .enter => return some (← enter tree)
  | .leave => do
      leave tree
      return none

/-- What a step is answered with: the scope that was entered, or why it is refused. -/
abbrev Answer := Except ScopeDrift (Option ScopeId)

/-- Makes steps in order, the refused ones too, and keeps the answers. -/
def follow (tree : ScopeTree) : List ScopeMark → StateM Trail (List Answer)
  | [] => return []
  | mark :: marks => do
      let answer ← (step tree mark).run
      let answers ← follow tree marks
      return answer :: answers

/-- The scope that an answer says was entered. -/
def entered? : Answer → Option ScopeId
  | .ok scope? => scope?
  | .error _ => none

/-- The scopes that were entered, in order. -/
def entered (answers : List Answer) : List ScopeId :=
  answers.filterMap entered?

end Trail

namespace Cursor

def trail (cursor : Cursor) : Trail :=
  cursor.innermost :: cursor.outer

/-- Makes the step that a mark tells, unless it is refused. -/
def moveOrStay (tree : ScopeTree) (cursor : Cursor) (mark : ScopeMark) : Cursor :=
  (cursor.move tree mark).toOption.getD cursor

end Cursor

end CoolLang
