import CoolLang.Scope.Trail
import CoolLang.Proofs.Scope.Preorder
import CoolLang.Proofs.Stateful

/-!
Walks over trees of scopes that were created in any order, with steps that may be refused. A walk enters scopes in
pre-order, never finds one in another place than the tree has it, and can end only when it has entered all
(`Trail.follow_preorder`). The invariant is an account (`Cursor.Stands`): the scopes that were entered, followed by those
that are left inside the scopes of the trail, are the pre-order of the tree without its root.
-/

namespace CoolLang

variable {tree : ScopeTree}

namespace Cursor

/-! ### What is left to enter -/

variable {cursor next : Cursor} {mark : ScopeMark} {steps : List CursorStep}

/-- The scopes that are left inside the scopes of some steps, in the order in which a walk has to enter them. -/
def remaining (tree : ScopeTree) (steps : List CursorStep) : List ScopeId :=
  steps.flatMap fun step => ((tree.children step.scope).drop step.visited).flatMap tree.subtree

/-- A cursor as it can stand in a tree. -/
structure Stands (tree : ScopeTree) (cursor : Cursor) : Prop where
  account : cursor.entered.toList ++ remaining tree cursor.trail = (tree.subtree ScopeTree.root).tail
  visited_le : ∀ step ∈ cursor.trail, step.visited ≤ (tree.children step.scope).length
  /-- The root is the outermost scope, and only that. -/
  from_root : ∃ inner, cursor.trail.map CursorStep.scope = inner ++ [ScopeTree.root] ∧ ScopeTree.root ∉ inner

theorem initial_stands (ordered : tree.Ordered) : initial.Stands tree where
  account := by
    rw [ordered.subtree_eq, List.tail_cons]
    exact List.append_nil _
  visited_le := by
    rintro step member
    cases List.mem_singleton.mp member
    exact Nat.zero_le _
  from_root := ⟨[], rfl, List.not_mem_nil⟩

/-- What a step that is not refused does. -/
theorem move_cases (moved : cursor.move tree mark = .ok next) :
    (∃ child, mark = .enter ∧ (tree.children cursor.current)[cursor.innermost.visited]? = some child ∧
      next.trail = ⟨child, 0⟩ :: ⟨cursor.current, cursor.innermost.visited + 1⟩ :: cursor.outer ∧
      next.entered = cursor.entered.push child) ∨
    (mark = .leave ∧ (tree.children cursor.current).length = cursor.innermost.visited ∧
      next.trail = cursor.outer ∧ next.entered = cursor.entered) := by
  obtain ⟨⟨scope, visited⟩, outer, entered⟩ := cursor
  cases mark with
  | enter =>
      rw [move, enter] at moved
      dsimp only at moved
      split at moved
      · cases moved
      · rename_i child isNext
        split at moved
        · cases moved
          exact .inl ⟨child, rfl, isNext, rfl, rfl⟩
        · cases moved
  | leave =>
      rw [move, leave] at moved
      dsimp only at moved
      split at moved
      · cases moved
      · rw [checkComplete] at moved
        dsimp only at moved
        split at moved
        · rename_i isComplete
          cases moved
          exact .inr ⟨rfl, isComplete.symm, rfl, rfl⟩
        · cases moved

theorem remaining_trail (tree : ScopeTree) (cursor : Cursor) :
    remaining tree cursor.trail =
      ((tree.children cursor.current).drop cursor.innermost.visited).flatMap tree.subtree ++
        remaining tree cursor.outer :=
  rfl

theorem remaining_cons (tree : ScopeTree) (step : CursorStep) (steps : List CursorStep) :
    remaining tree (step :: steps) =
      ((tree.children step.scope).drop step.visited).flatMap tree.subtree ++ remaining tree steps :=
  rfl

/-- Entering takes the first scope of what is left, and leaving takes none. -/
theorem Stands.move (stands : cursor.Stands tree) (ordered : tree.Ordered) (moved : cursor.move tree mark = .ok next) :
    next.Stands tree := by
  obtain ⟨account, visited_le, inner, scopes, notInner⟩ := stands
  rcases move_cases moved with ⟨child, -, isNext, isTrail, entered⟩ | ⟨-, isComplete, isTrail, entered⟩
  · obtain ⟨bound, isChild⟩ := List.getElem?_eq_some_iff.mp isNext
    have isInside : child ∈ tree.children cursor.current := List.mem_of_getElem? isNext
    constructor
    · rw [← account, entered, isTrail, remaining_trail, Array.toList_push, List.append_assoc, remaining_cons,
        remaining_cons, List.drop_eq_getElem_cons bound, isChild, List.flatMap_cons, ordered.subtree_eq child]
      simp only [List.drop_zero, List.cons_append, List.nil_append, List.append_assoc]
    · rw [isTrail]
      intro step member
      rcases List.mem_cons.mp member with rfl | member
      · exact Nat.zero_le _
      · rcases List.mem_cons.mp member with rfl | member
        · exact bound
        · exact visited_le step (List.mem_cons_of_mem _ member)
    · refine ⟨child :: inner, ?_, ?_⟩
      · rw [isTrail, List.cons_append, ← scopes]
        rfl
      · intro isRoot
        rcases List.mem_cons.mp isRoot with rfl | isRoot
        · exact Nat.not_lt_zero _ (ordered.lt_child isInside)
        · exact notInner isRoot
  · constructor
    · rw [← account, entered, isTrail, remaining_trail, List.drop_of_length_le (Nat.le_of_eq isComplete)]
      rfl
    · rw [isTrail]
      exact fun step member => visited_le step (List.mem_cons_of_mem _ member)
    · rw [trail, List.map_cons, ← isTrail] at scopes
      cases inner with
      | nil => cases (List.cons.inj scopes).2
      | cons scope inner =>
          exact ⟨inner, (List.cons.inj scopes).2, fun isRoot => notInner (List.mem_cons_of_mem _ isRoot)⟩

theorem Stands.moveOrStay (stands : cursor.Stands tree) (ordered : tree.Ordered) (mark : ScopeMark) :
    (cursor.moveOrStay tree mark).Stands tree := by
  rw [Cursor.moveOrStay]
  cases moved : cursor.move tree mark with
  | error drift => exact stands
  | ok next => exact stands.move ordered moved

theorem Stands.foldl_moveOrStay (stands : cursor.Stands tree) (ordered : tree.Ordered) (marks : List ScopeMark) :
    (marks.foldl (Cursor.moveOrStay tree) cursor).Stands tree := by
  induction marks generalizing cursor with
  | nil => exact stands
  | cons mark marks ih => exact ih (stands.moveOrStay ordered mark)

/-- A tree gives each scope the place in which a walk finds it. -/
theorem move_ne_indexMismatch (ordered : tree.Ordered) (cursor : Cursor) (mark : ScopeMark) (scope : ScopeId)
    (expected found : Nat) : cursor.move tree mark ≠ .error (.indexMismatch scope expected found) := by
  intro refused
  obtain ⟨⟨around, visited⟩, outer, entered⟩ := cursor
  cases mark with
  | enter =>
      rw [Cursor.move, enter] at refused
      dsimp only at refused
      split at refused
      · cases refused
      · rename_i child isNext
        rw [if_pos (ordered.index isNext)] at refused
        cases refused
  | leave =>
      rw [Cursor.move, leave] at refused
      dsimp only at refused
      split at refused
      · cases refused
      · rw [checkComplete] at refused
        dsimp only at refused
        split at refused <;> cases refused

theorem finish_eq_ok_iff : cursor.finish tree = .ok () ↔
    cursor.outer = [] ∧ cursor.innermost.visited = (tree.children cursor.current).length := by
  obtain ⟨⟨scope, visited⟩, outer, entered⟩ := cursor
  cases outer with
  | nil =>
      rw [finish]
      dsimp only [checkComplete, current]
      split
      · exact iff_of_true rfl ⟨rfl, ‹_›⟩
      · exact iff_of_false nofun fun isEnd => ‹¬_› isEnd.2
  | cons around outer => exact iff_of_false nofun fun isEnd => nomatch isEnd.1

theorem Stands.outer_eq_nil_iff (stands : cursor.Stands tree) :
    cursor.outer = [] ↔ cursor.current = ScopeTree.root := by
  obtain ⟨inner, scopes, notInner⟩ := stands.from_root
  rw [trail, List.map_cons] at scopes
  cases inner with
  | nil =>
      obtain ⟨isRoot, nothing⟩ := List.cons.inj scopes
      exact iff_of_true (List.map_eq_nil_iff.mp nothing) isRoot
  | cons scope inner =>
      obtain ⟨isScope, outer⟩ := List.cons.inj scopes
      refine iff_of_false (fun nothing => ?_) fun isRoot => ?_
      · rw [nothing] at outer
        exact List.append_ne_nil_of_right_ne_nil _ (List.cons_ne_nil _ _) outer.symm
      · exact notInner (List.mem_cons.mpr (.inl (isRoot.symm.trans isScope)))

/-- A walk can end where it is back at the root and has entered all other scopes. -/
theorem Stands.finish_iff (stands : cursor.Stands tree) (ordered : tree.Ordered)
    (distinct : (tree.subtree ScopeTree.root).Nodup) :
    cursor.finish tree = .ok () ↔
      cursor.current = ScopeTree.root ∧ ∀ scope ∈ (tree.subtree ScopeTree.root).tail, scope ∈ cursor.entered := by
  have account := stands.account
  rw [remaining_trail] at account
  rw [finish_eq_ok_iff, stands.outer_eq_nil_iff]
  refine and_congr_right fun isRoot => ?_
  constructor
  · intro isComplete scope member
    rw [stands.outer_eq_nil_iff.mpr isRoot, List.drop_of_length_le (Nat.le_of_eq isComplete.symm)] at account
    rw [← account] at member
    exact Array.mem_toList_iff.mp ((List.append_nil cursor.entered.toList) ▸ member)
  · intro all
    refine Nat.le_antisymm (stands.visited_le _ List.mem_cons_self) (Nat.not_lt.mp fun bound => ?_)
    -- The next child would be listed twice, as entered and as left.
    rw [List.drop_eq_getElem_cons bound, List.flatMap_cons, ordered.subtree_eq] at account
    have apart := (List.nodup_append.mp (account ▸ distinct.tail)).2.2
    refine apart _ (Array.mem_toList_iff.mpr (all _ ?_)) _ List.mem_cons_self rfl
    rw [← account]
    exact List.mem_append_right _ List.mem_cons_self

end Cursor

namespace Trail

/-! ### Walks in place -/

/-- What a mark is answered with where the move that it tells is made. -/
def entering : ScopeMark → Cursor → Option ScopeId
  | .enter, next => some next.current
  | .leave, _ => none

theorem run_enter (tree : ScopeTree) (cursor : Cursor) :
    (enter tree).run.run cursor.trail =
      match cursor.enter tree with
      | .ok next => (.ok next.current, next.trail)
      | .error drift => (.error drift, cursor.trail) := by
  obtain ⟨⟨scope, visited⟩, outer, entered⟩ := cursor
  rw [enter, Refusable.run_get_bind, Cursor.enter]
  dsimp only [Cursor.trail]
  cases (tree.children scope)[visited]? with
  | none => rfl
  | some child =>
      dsimp only
      by_cases isPlace : tree.index child = visited
      · rw [if_pos isPlace, if_neg (not_not.mpr isPlace)]
        rfl
      · rw [if_neg isPlace, if_pos isPlace]
        rfl

theorem run_checkComplete (tree : ScopeTree) (cursor : Cursor) :
    (checkComplete tree).run.run cursor.trail = (cursor.checkComplete tree, cursor.trail) := by
  obtain ⟨⟨scope, visited⟩, outer, entered⟩ := cursor
  rw [checkComplete, Refusable.run_get_bind, Cursor.checkComplete]
  dsimp only [Cursor.trail]
  by_cases isComplete : visited = (tree.children scope).length
  · rw [if_pos isComplete, if_neg (not_not.mpr isComplete)]
    rfl
  · rw [if_neg isComplete, if_pos isComplete]
    rfl

theorem run_leave (tree : ScopeTree) (cursor : Cursor) :
    (leave tree).run.run cursor.trail =
      match cursor.leave tree with
      | .ok next => (.ok (), next.trail)
      | .error drift => (.error drift, cursor.trail) := by
  obtain ⟨innermost, outer, entered⟩ := cursor
  rw [leave, Refusable.run_get_bind, Cursor.leave]
  cases outer with
  | nil => rfl
  | cons around outer =>
      have isInside : ¬(Cursor.mk innermost (around :: outer) entered).trail.length ≤ 1 := by
        simp [Cursor.trail]
      rw [if_neg isInside]
      refine (Refusable.run_bind _ _ _).trans ?_
      rw [run_checkComplete]
      dsimp only
      cases Cursor.checkComplete tree ⟨innermost, around :: outer, entered⟩ <;> rfl

theorem run_finish (tree : ScopeTree) (cursor : Cursor) :
    (finish tree).run.run cursor.trail = (cursor.finish tree, cursor.trail) := by
  obtain ⟨innermost, outer, entered⟩ := cursor
  rw [finish, Refusable.run_get_bind, Cursor.finish]
  cases outer with
  | nil => exact run_checkComplete tree ⟨innermost, [], entered⟩
  | cons around outer =>
      have isInside : (Cursor.mk innermost (around :: outer) entered).trail.length ≠ 1 := by
        simp [Cursor.trail]
      rw [if_pos isInside]
      rfl

/-- In place, a step comes to the move of the cursor, and a refused one to nothing. -/
theorem run_step (tree : ScopeTree) (cursor : Cursor) (mark : ScopeMark) :
    (step tree mark).run.run cursor.trail =
      match cursor.move tree mark with
      | .ok next => (.ok (entering mark next), next.trail)
      | .error drift => (.error drift, cursor.trail) := by
  cases mark with
  | enter =>
      rw [step, Refusable.run_bind, run_enter, Cursor.move]
      cases cursor.enter tree <;> rfl
  | leave =>
      rw [step, Refusable.run_bind, run_leave, Cursor.move]
      cases cursor.leave tree <;> rfl

/-- A step that is refused changes nothing. -/
theorem step_atomic {trail after : Trail} {mark : ScopeMark} {drift : ScopeDrift}
    (refused : (step tree mark).run.run trail = (.error drift, after)) : after = trail := by
  cases trail with
  | nil =>
      cases mark <;> exact (Prod.mk.inj refused).2.symm
  | cons innermost outer =>
      have ran := (run_step tree ⟨innermost, outer, #[]⟩ mark).symm.trans refused
      generalize Cursor.move tree ⟨innermost, outer, #[]⟩ mark = moved at ran
      cases moved with
      | error drift => exact (Prod.mk.inj ran).2.symm
      | ok next => cases (Prod.mk.inj ran).1

theorem run_step_moveOrStay (tree : ScopeTree) (cursor : Cursor) (mark : ScopeMark) :
    ((step tree mark).run.run cursor.trail).2 = (cursor.moveOrStay tree mark).trail ∧
      cursor.entered.toList ++ (entered? ((step tree mark).run.run cursor.trail).1).toList =
        (cursor.moveOrStay tree mark).entered.toList := by
  rw [run_step, Cursor.moveOrStay]
  cases moved : cursor.move tree mark with
  | error drift => exact ⟨rfl, List.append_nil _⟩
  | ok next =>
      refine ⟨rfl, ?_⟩
      rcases Cursor.move_cases moved with ⟨child, rfl, -, isTrail, entered⟩ | ⟨rfl, -, -, entered⟩
      · have isChild : next.current = child := congrArg CursorStep.scope (List.cons.inj isTrail).1
        change cursor.entered.toList ++ [next.current] = next.entered.toList
        rw [entered, isChild, Array.toList_push]
      · change cursor.entered.toList ++ [] = next.entered.toList
        rw [entered, List.append_nil]

theorem follow_cons (mark : ScopeMark) (marks : List ScopeMark) (trail : Trail) :
    (follow tree (mark :: marks)).run trail =
      (((step tree mark).run.run trail).1 :: ((follow tree marks).run ((step tree mark).run.run trail).2).1,
        ((follow tree marks).run ((step tree mark).run.run trail).2).2) :=
  rfl

theorem entered_cons (answer : Answer) (answers : List Answer) :
    entered (answer :: answers) = (entered? answer).toList ++ entered answers := by
  rw [entered, List.filterMap_cons, entered]
  cases entered? answer <;> rfl

/-- Going on after refused steps, a walk in place follows a cursor that stays where a move is refused, and its answers
tell what this cursor has entered. -/
theorem run_follow (tree : ScopeTree) (cursor : Cursor) (marks : List ScopeMark) :
    ((follow tree marks).run cursor.trail).2 = (marks.foldl (Cursor.moveOrStay tree) cursor).trail ∧
      cursor.entered.toList ++ entered ((follow tree marks).run cursor.trail).1 =
        (marks.foldl (Cursor.moveOrStay tree) cursor).entered.toList := by
  induction marks generalizing cursor with
  | nil => exact ⟨rfl, List.append_nil _⟩
  | cons mark marks ih =>
      obtain ⟨isTrail, isEntered⟩ := run_step_moveOrStay tree cursor mark
      obtain ⟨isLast, all⟩ := ih (cursor.moveOrStay tree mark)
      rw [follow_cons, List.foldl_cons, isTrail, entered_cons, ← List.append_assoc, isEntered]
      exact ⟨isLast, all⟩

theorem mem_follow (tree : ScopeTree) (cursor : Cursor) (marks : List ScopeMark) {answer : Answer}
    (member : answer ∈ ((follow tree marks).run cursor.trail).1) :
    ∃ (before : Cursor) (mark : ScopeMark), answer = ((step tree mark).run.run before.trail).1 := by
  induction marks generalizing cursor with
  | nil => cases member
  | cons mark marks ih =>
      rw [follow_cons, (run_step_moveOrStay tree cursor mark).1] at member
      rcases List.mem_cons.mp member with isFirst | member
      · exact ⟨cursor, mark, isFirst⟩
      · exact ih _ member

theorem step_ne_indexMismatch (ordered : tree.Ordered) (cursor : Cursor) (mark : ScopeMark) (scope : ScopeId)
    (expected found : Nat) :
    ((step tree mark).run.run cursor.trail).1 ≠ .error (.indexMismatch scope expected found) := by
  have never := Cursor.move_ne_indexMismatch ordered cursor mark scope expected found
  rw [run_step]
  cases moved : cursor.move tree mark with
  | error drift => exact fun same => never (moved.trans (congrArg Except.error (Except.error.inj same)))
  | ok next => exact nofun

/-- Whatever steps a walk tries to make over a tree of scopes that were created one after the other, it finds each scope
in its place, and a step that is refused changes nothing. The scopes that it enters begin the pre-order of those below
the root, where each is listed once. It can end if and only if it is back at the root and has entered them all. It is
the walk of a cursor that stays where it is refused to move. -/
theorem follow_preorder (created : tree.Created) (marks : List ScopeMark) :
    let walk := (follow tree marks).run initial
    let below := (tree.preorder.map Prod.fst).tail
    (∀ answer ∈ walk.1, ∀ scope expected found, answer ≠ .error (.indexMismatch scope expected found)) ∧
      (∀ trail mark drift after, (step tree mark).run.run trail = (.error drift, after) → after = trail) ∧
      entered walk.1 <+: below ∧ (entered walk.1).Nodup ∧
      below.Perm (List.range' 1 (tree.nodes.size - 1)) ∧
      (((finish tree).run.run walk.2).1 = .ok () ↔
        current walk.2 = ScopeTree.root ∧ ∀ scope ∈ below, scope ∈ entered walk.1) ∧
      walk.2 = (marks.foldl (Cursor.moveOrStay tree) .initial).trail ∧
      entered walk.1 = (marks.foldl (Cursor.moveOrStay tree) .initial).entered.toList := by
  have ordered := created.ordered
  have listed := created.preorder_perm
  rw [ScopeTree.map_fst_preorder] at listed ⊢
  have distinct : (tree.subtree ScopeTree.root).Nodup := listed.nodup_iff.mpr List.nodup_range
  obtain ⟨isTrail, isEntered⟩ := run_follow tree .initial marks
  rw [show Cursor.initial.trail = initial from rfl] at isTrail isEntered
  have stands := (Cursor.initial_stands ordered).foldl_moveOrStay ordered marks
  generalize marks.foldl (Cursor.moveOrStay tree) .initial = last at isTrail isEntered stands
  have isBeginning : entered ((follow tree marks).run initial).1 <+: (tree.subtree ScopeTree.root).tail := by
    rw [← stands.account, ← isEntered]
    exact List.prefix_append _ _
  refine ⟨fun answer member scope expected found => ?_, fun _ _ _ _ => step_atomic, isBeginning,
    distinct.tail.sublist isBeginning.sublist, ?_, ?_, isTrail, isEntered⟩
  · obtain ⟨before, mark, rfl⟩ := mem_follow tree .initial marks member
    exact step_ne_indexMismatch ordered before mark scope expected found
  · obtain ⟨count, size⟩ := Nat.exists_eq_succ_of_ne_zero (Nat.ne_of_gt ordered.root_lt)
    rw [ordered.subtree_eq, size, List.range_eq_range', List.range'_succ] at listed
    rw [ordered.subtree_eq, size]
    exact listed.cons_inv
  · rw [isTrail, run_finish, stands.finish_iff ordered distinct]
    refine and_congr_right fun _ => forall₂_congr fun scope _ => ?_
    rw [← Array.mem_toList_iff, ← isEntered]
    exact Iff.rfl

/-- Two scopes in the root, the first of them with one inside it that was created last. -/
def branching : ScopeTree :=
  (((ScopeTree.initial.createChild 0).2.createChild 0).2.createChild 1).2

/-- A walk that is refused to leave the root and to leave a scope too early enters all of a tree all the same. -/
theorem follow_preorder_branching :
    let walk := (follow branching [.leave, .enter, .leave, .enter, .leave, .leave, .enter, .enter, .leave]).run initial
    branching.Created ∧ walk.1.length = 9 ∧ entered walk.1 = [1, 3, 2] ∧
      ((finish branching).run.run walk.2).1 = .ok () := by
  have created : branching.Created :=
    .createChild (.createChild (.createChild .initial (by decide)) (by decide)) (by decide)
  exact ⟨created, by decide, by decide, (follow_preorder created _).2.2.2.2.2.1.mpr (by decide)⟩

end Trail

end CoolLang
