import CoolLang.Scope.Cursor

/-!
Nested scopes as the syntax of a program gives them. A walk over a tree that has these scopes enters and
leaves them in one order (`Nest.marks`).
-/

namespace CoolLang

/-- A scope, by the scopes inside it. -/
inductive Nest where
  | scope (inner : List Nest)

inductive ScopeMark where
  | enter
  | leave
deriving DecidableEq

namespace Nest

mutual

/-- How a walk goes through a scope. -/
def marks : Nest → List ScopeMark
  | .scope inner => .enter :: (marksAll inner ++ [.leave])

def marksAll : List Nest → List ScopeMark
  | [] => []
  | nest :: nests => marks nest ++ marksAll nests

end

mutual

/-- Whether a scope of a tree has the scopes inside it that a nest tells, each in its place. -/
def At (tree : ScopeTree) : Nest → ScopeId → Prop
  | .scope inner, id => AllAt tree 0 inner (tree.children id)

/-- Whether scopes of a tree, the first of them in that place among its siblings, are those of nests. -/
def AllAt (tree : ScopeTree) : Nat → List Nest → List ScopeId → Prop
  | _, [], [] => True
  | place, nest :: nests, id :: ids =>
      tree.index id = place ∧ At tree nest id ∧ AllAt tree (place + 1) nests ids
  | _, _, _ => False

end

end Nest

/-- The scopes of a tree without what is local to them. -/
def ScopeTree.skeleton (tree : ScopeTree) : ScopeTree where
  nodes := tree.nodes.map fun node => { node with locals := #[] }
  vars := #[]

namespace Cursor

/-- Makes the step that a mark tells. -/
def move (tree : ScopeTree) (cursor : Cursor) : ScopeMark → Except ScopeDrift Cursor
  | .enter => cursor.enter tree
  | .leave => cursor.leave tree

/-- Makes the steps that marks tell, up to the first that is refused. -/
def moves (tree : ScopeTree) (cursor : Cursor) (marks : List ScopeMark) : Except ScopeDrift Cursor :=
  marks.foldlM (move tree) cursor

/-- A walk that is back at the root after it has entered every other scope once, in pre-order. -/
structure IsComplete (tree : ScopeTree) (cursor : Cursor) : Prop where
  atRoot : cursor.current = ScopeTree.root
  nothing_open : cursor.outer = []
  finished : cursor.finish tree = .ok ()
  preorder : ScopeTree.root :: cursor.entered.toList = tree.preorder.map Prod.fst
  once : (tree.preorder.map Prod.fst).Perm (List.range tree.nodes.size)

end Cursor

end CoolLang
