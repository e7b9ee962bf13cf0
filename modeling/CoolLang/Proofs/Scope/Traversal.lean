import CoolLang.Proofs.Scope.Growth

/-!
Walks over a scope tree. Where the tree has the scopes of some nests, a cursor that goes by their marks
enters each of them once, in pre-order, and ends where it began (`Nest.moves_marksAll`).
-/

namespace CoolLang

variable {tree : ScopeTree} {scope : ScopeId} {visited : Nat} {outer : List CursorStep}
  {entered : Array ScopeId} {ids behind : List ScopeId} {cursor after : Cursor}
  {front back : List ScopeMark}

/-- Where what is left of a list begins with an item, the item is next, and the others are left after it. -/
theorem next_of_drop {α : Type} {items others : List α} {item : α} {place : Nat}
    (left : items.drop place = item :: others) :
    items[place]? = some item ∧ items.drop (place + 1) = others := by
  rw [← List.head?_drop, ← List.tail_drop, left]
  exact ⟨rfl, rfl⟩

namespace Cursor

@[simp]
theorem moves_cons (mark : ScopeMark) (marks : List ScopeMark) :
    cursor.moves tree (mark :: marks) =
      (cursor.move tree mark).bind fun next => next.moves tree marks :=
  rfl

theorem moves_append (front back : List ScopeMark) :
    cursor.moves tree (front ++ back) =
      (cursor.moves tree front).bind fun next => next.moves tree back :=
  List.foldlM_append

/-- The way through two lists of marks leads through a cursor in between. -/
theorem exists_of_moves_append (moved : cursor.moves tree (front ++ back) = .ok after) :
    ∃ between, cursor.moves tree front = .ok between ∧ between.moves tree back = .ok after := by
  rw [moves_append] at moved
  cases first : cursor.moves tree front with
  | error drift =>
      rw [first] at moved
      cases moved
  | ok between =>
      rw [first] at moved
      exact ⟨between, rfl, moved⟩

/-- Where a cursor goes depends on the children and the places of scopes only. -/
theorem moves_congr {one two : ScopeTree} (children : ∀ scope, one.children scope = two.children scope)
    (index : ∀ scope, one.index scope = two.index scope) (cursor : Cursor) (marks : List ScopeMark) :
    cursor.moves one marks = cursor.moves two marks := by
  have same : move one = move two := by
    funext cursor mark
    cases mark with
    | enter => simp only [move, enter, children, index]
    | leave => simp only [move, leave, checkComplete, children]
  rw [moves, moves, same]

theorem moves_of_nodes {one two : ScopeTree} (nodes : one.nodes = two.nodes) (cursor : Cursor)
    (marks : List ScopeMark) : cursor.moves one marks = cursor.moves two marks :=
  moves_congr (congrFun (ScopeTree.children_of_nodes nodes)) (congrFun (ScopeTree.index_of_nodes nodes)) cursor marks

theorem finish_congr {one two : ScopeTree} (nodes : one.nodes = two.nodes) (cursor : Cursor) :
    cursor.finish one = cursor.finish two := by
  simp only [finish, checkComplete, ScopeTree.children_of_nodes nodes]

theorem moves_skeleton (tree : ScopeTree) (cursor : Cursor) (marks : List ScopeMark) :
    cursor.moves tree.skeleton marks = cursor.moves tree marks :=
  moves_congr tree.children_skeleton tree.index_skeleton cursor marks

theorem enter_eq_ok {id : ScopeId} (next : (tree.children scope)[visited]? = some id)
    (place : tree.index id = visited) :
    enter tree ⟨⟨scope, visited⟩, outer, entered⟩ =
      .ok ⟨⟨id, 0⟩, ⟨scope, visited + 1⟩ :: outer, entered.push id⟩ := by
  simp only [enter, next, if_pos place]

theorem leave_eq_ok {around : CursorStep} (complete : visited = (tree.children scope).length) :
    leave tree ⟨⟨scope, visited⟩, around :: outer, entered⟩ = .ok ⟨around, outer, entered⟩ := by
  simp only [leave, checkComplete, if_pos complete]
  rfl

end Cursor

namespace Nest

mutual

/-- A cursor that goes through a scope by its marks enters all scopes inside it. -/
theorem moves_marks {scope id : ScopeId} {visited : Nat} {outer : List CursorStep}
    {entered : Array ScopeId} : (nest : Nest) → (isNext : (tree.children scope)[visited]? = some id) →
    (place : tree.index id = visited) → (fits : nest.At tree id) →
    Cursor.moves tree ⟨⟨scope, visited⟩, outer, entered⟩ nest.marks =
      .ok ⟨⟨scope, visited + 1⟩, outer, entered ++ nest.scopes tree id⟩
  | .scope inner, isNext, place, fits => by
      rw [At] at fits
      rw [marks, scopes, Cursor.moves_cons, Cursor.move, Cursor.enter_eq_ok isNext place]
      have inside := @moves_marksAll id 0 (⟨scope, visited + 1⟩ :: outer) (entered.push id)
        (tree.children id) inner [] (by rw [List.drop_zero, List.append_nil]) fits
      have complete := fits.length_eq
      dsimp only [Except.bind]
      rw [Cursor.moves_append, inside]
      dsimp only [Except.bind]
      rw [Cursor.moves_cons, Cursor.move, Cursor.leave_eq_ok (by rw [complete, Nat.zero_add])]
      rfl

theorem moves_marksAll {scope : ScopeId} {visited : Nat} {outer : List CursorStep}
    {entered : Array ScopeId} {ids : List ScopeId} : (nests : List Nest) → (behind : List ScopeId) →
    (left : (tree.children scope).drop visited = ids ++ behind) → (fits : AllAt tree visited nests ids) →
    Cursor.moves tree ⟨⟨scope, visited⟩, outer, entered⟩ (marksAll nests) =
      .ok ⟨⟨scope, visited + nests.length⟩, outer, entered ++ scopesAll tree nests ids⟩
  | [], _, _, _ => by
      rw [marksAll, scopesAll]
      rfl
  | nest :: nests, behind, left, fits => by
      obtain _ | ⟨id, ids⟩ := ids
      · exact fits.elim
      · obtain ⟨place, first, later⟩ := fits
        obtain ⟨isNext, rest⟩ := next_of_drop left
        rw [marksAll, Cursor.moves_append, moves_marks nest isNext place first]
        dsimp only [Except.bind]
        rw [moves_marksAll nests behind rest later, scopesAll, List.length_cons]
        congr 2
        · rw [Nat.add_assoc, Nat.add_comm 1]
        · exact Array.toList_inj.mp (by simp)

end

/-! ### Pre-order -/

mutual

/-- The pre-order of a tree lists the scopes that nests tell of. -/
theorem map_preorderFrom {id : ScopeId} {levels depth : Nat} : (nest : Nest) → nest.At tree id →
    (nest.scopes tree id).length ≤ levels →
    (tree.preorderFrom levels depth id).map Prod.fst = nest.scopes tree id
  | .scope inner, fits, deep => by
      rw [At] at fits
      rw [scopes] at deep ⊢
      obtain _ | levels := levels
      · cases deep
      · rw [ScopeTree.preorderFrom, List.map_cons,
          map_preorderFromAll inner fits (Nat.le_of_succ_le_succ deep)]

theorem map_preorderFromAll {ids : List ScopeId} {place levels depth : Nat} : (nests : List Nest) →
    AllAt tree place nests ids → (scopesAll tree nests ids).length ≤ levels →
    (ids.flatMap fun id => tree.preorderFrom levels depth id).map Prod.fst = scopesAll tree nests ids
  | [], fits, deep => by
      obtain rfl := List.length_eq_zero_iff.mp fits.length_eq.symm
      rw [scopesAll]
      rfl
  | nest :: nests, fits, deep => by
      obtain _ | ⟨id, ids⟩ := ids
      · exact fits.elim
      · obtain ⟨_, first, later⟩ := fits
        rw [scopesAll, List.length_append] at deep
        rw [List.flatMap_cons, List.map_append, map_preorderFrom nest first (by omega),
          map_preorderFromAll nests later (by omega), scopesAll]

end

/-! ### All of a tree -/

theorem preorder_skeleton (tree : ScopeTree) : tree.skeleton.preorder = tree.preorder := by
  have same (levels depth : Nat) (scope : ScopeId) :
      tree.skeleton.preorderFrom levels depth scope = tree.preorderFrom levels depth scope := by
    induction levels generalizing depth scope with
    | zero => rfl
    | succ levels ih =>
        rw [ScopeTree.preorderFrom, ScopeTree.preorderFrom, ScopeTree.children_skeleton]
        simp only [ih]
  rw [ScopeTree.preorder, ScopeTree.preorder, same, ScopeTree.size_skeleton]

mutual

theorem at_skeleton {id : ScopeId} : (nest : Nest) → (nest.At tree.skeleton id ↔ nest.At tree id)
  | .scope inner => by rw [At, At, ScopeTree.children_skeleton, allAt_skeleton inner]

theorem allAt_skeleton {place : Nat} {ids : List ScopeId} : (nests : List Nest) →
    (AllAt tree.skeleton place nests ids ↔ AllAt tree place nests ids)
  | [] => by cases ids <;> exact Iff.rfl
  | nest :: nests => by
      cases ids with
      | nil => exact Iff.rfl
      | cons id ids =>
          rw [AllAt, AllAt, ScopeTree.index_skeleton, at_skeleton nest, allAt_skeleton nests]

end

/-- A cursor goes by the marks of all scopes from the root of their tree back to it. -/
theorem exists_complete {nests : List Nest} (isOutline : tree.skeleton = outline nests) :
    ∃ last, Cursor.initial.moves tree (marksAll nests) = .ok last ∧ last.IsComplete tree := by
  obtain ⟨fits, numbered⟩ := outline_at nests
  rw [← isOutline] at fits numbered
  have size := numbered.length_eq
  rw [List.length_range] at size
  have preorder : tree.preorder.map Prod.fst = (Nest.scope nests).scopes tree.skeleton ScopeTree.root := by
    rw [← preorder_skeleton]
    exact map_preorderFrom _ fits (Nat.le_of_eq size)
  rw [ScopeTree.size_skeleton, ← preorder] at numbered
  rw [At] at fits
  refine ⟨_, (Cursor.moves_skeleton ..).symm.trans (moves_marksAll nests [] (List.append_nil _).symm fits),
    rfl, rfl, ?_, ?_, numbered⟩
  · have complete : 0 + nests.length = (tree.children ScopeTree.root).length := by
      rw [Nat.zero_add, fits.length_eq, ScopeTree.children_skeleton]
    simp only [Cursor.finish, Cursor.checkComplete, if_pos complete]
  · rw [preorder, scopes]
    congr 1
    simp

end Nest

end CoolLang
