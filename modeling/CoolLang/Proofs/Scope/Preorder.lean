import CoolLang.Proofs.Scope.Growth
import Mathlib.Algebra.BigOperators.Group.List.Basic
import Mathlib.Data.List.Nodup

/-!
Trees of scopes that were created in any order. Their scopes have greater numbers than the scopes around them and know
their places (`ScopeTree.Created.ordered`), and the pre-order has every scope once (`ScopeTree.Created.preorder_perm`).
-/

namespace CoolLang

variable {tree after : ScopeTree} {parent scope child levels : Nat}

namespace ScopeTree

/-! ### The pre-order without depths -/

/-- A scope and all scopes inside it in pre-order, down to `levels` levels. -/
def within (tree : ScopeTree) : Nat → ScopeId → List ScopeId
  | 0, _ => []
  | levels + 1, scope => scope :: (tree.children scope).flatMap (tree.within levels)

theorem map_fst_preorderFrom (tree : ScopeTree) (levels depth : Nat) (scope : ScopeId) :
    (tree.preorderFrom levels depth scope).map Prod.fst = tree.within levels scope := by
  induction levels generalizing depth scope with
  | zero => rfl
  | succ levels ih =>
      rw [preorderFrom, within, List.map_cons, List.map_flatMap]
      simp only [ih]

/-- A scope and all scopes inside it, in pre-order. -/
def subtree (tree : ScopeTree) (scope : ScopeId) : List ScopeId :=
  tree.within tree.nodes.size scope

theorem map_fst_preorder (tree : ScopeTree) : tree.preorder.map Prod.fst = tree.subtree root :=
  tree.map_fst_preorderFrom _ 0 root

/-- A tree in which scopes have greater numbers than the scopes around them, and know their places. -/
structure Ordered (tree : ScopeTree) : Prop where
  root_lt : root < tree.nodes.size
  lt_child : ∀ {scope child : Nat}, child ∈ tree.children scope → scope < child
  child_lt : ∀ {scope child : Nat}, child ∈ tree.children scope → child < tree.nodes.size
  index : ∀ {scope child place : Nat}, (tree.children scope)[place]? = some child → tree.index child = place

theorem Ordered.of_skeleton (ordered : tree.Ordered) (same : after.skeleton = tree.skeleton) : after.Ordered := by
  have size : after.nodes.size = tree.nodes.size := by
    rw [← size_skeleton, same, size_skeleton]
  have children (scope : ScopeId) : after.children scope = tree.children scope := by
    rw [← children_skeleton, same, children_skeleton]
  have index (scope : ScopeId) : after.index scope = tree.index scope := by
    rw [← index_skeleton, same, index_skeleton]
  constructor
  · exact size ▸ ordered.root_lt
  · intro scope child member
    exact ordered.lt_child (children scope ▸ member)
  · intro scope child member
    exact size ▸ ordered.child_lt (children scope ▸ member)
  · intro scope child place isAt
    rw [index]
    exact ordered.index (children scope ▸ isAt)

/-- More levels than there are scopes make no difference. -/
theorem Ordered.within_eq (ordered : tree.Ordered) {more : Nat} (known : scope < tree.nodes.size)
    (enough : tree.nodes.size ≤ scope + levels) (enough' : tree.nodes.size ≤ scope + more) :
    tree.within levels scope = tree.within more scope := by
  induction levels generalizing scope more with
  | zero => omega
  | succ levels ih =>
      cases more with
      | zero => omega
      | succ more =>
          rw [within, within]
          refine congrArg _ (List.flatMap_congr fun child member => ?_)
          have greater := ordered.lt_child member
          exact ih (ordered.child_lt member) (by omega) (by omega)

theorem Ordered.subtree_eq (ordered : tree.Ordered) (scope : Nat) :
    tree.subtree scope = scope :: (tree.children scope).flatMap tree.subtree := by
  obtain ⟨levels, size⟩ := Nat.exists_eq_succ_of_ne_zero (Nat.ne_of_gt ordered.root_lt)
  rw [subtree, size, within]
  refine congrArg _ (List.flatMap_congr fun child member => ?_)
  have greater := ordered.lt_child member
  exact ordered.within_eq (ordered.child_lt member) (by omega) (Nat.le_add_left _ _)

/-! ### One scope more -/

theorem children_createChild_self (known : parent < tree.nodes.size) :
    (tree.createChild parent).2.children parent = tree.children parent ++ [tree.nodes.size] := by
  rw [children, node_createChild_self known, children, Array.toList_push]

theorem children_createChild_new (known : parent < tree.nodes.size) :
    (tree.createChild parent).2.children tree.nodes.size = [] := by
  rw [children, node_createChild_new known]

theorem children_createChild_of_ne (known : scope < tree.nodes.size) (other : scope ≠ parent) :
    (tree.createChild parent).2.children scope = tree.children scope :=
  children_of_node (node_createChild_of_ne known other)

theorem index_createChild_new (known : parent < tree.nodes.size) :
    (tree.createChild parent).2.index tree.nodes.size = (tree.children parent).length := by
  rw [index, node_createChild_new known]

theorem index_createChild_of_lt (known : parent < tree.nodes.size) (old : scope < tree.nodes.size) :
    (tree.createChild parent).2.index scope = tree.index scope := by
  by_cases isParent : scope = parent
  · rw [isParent, index, node_createChild_self known, index]
  · exact index_of_node (node_createChild_of_ne old isParent)

theorem children_of_size_le (absent : tree.nodes.size ≤ scope) : tree.children scope = [] := by
  rw [children, node, Array.getElem?_eq_none absent]
  rfl

/-- A child in a tree with one scope more was there in its place, or is the new scope in the last place. -/
theorem createChild_cases (known : parent < tree.nodes.size) {place : Nat}
    (isAt : ((tree.createChild parent).2.children scope)[place]? = some child) :
    (tree.children scope)[place]? = some child ∨
      scope = parent ∧ child = tree.nodes.size ∧ place = (tree.children parent).length := by
  rcases Nat.lt_trichotomy scope tree.nodes.size with old | isNew | unknown
  · by_cases isParent : scope = parent
    · rw [isParent, children_createChild_self known] at isAt
      rw [isParent]
      rcases Nat.lt_trichotomy place (tree.children parent).length with before | isLast | beyond
      · rw [List.getElem?_append_left before] at isAt
        exact .inl isAt
      · rw [isLast, List.getElem?_concat_length] at isAt
        exact .inr ⟨rfl, (Option.some.inj isAt).symm, isLast⟩
      · rw [List.getElem?_eq_none (by rw [List.length_append]; exact beyond)] at isAt
        cases isAt
    · rw [children_createChild_of_ne old isParent] at isAt
      exact .inl isAt
  · rw [isNew, children_createChild_new known] at isAt
    cases isAt
  · rw [children_of_size_le ((size_createChild tree parent).trans_le unknown)] at isAt
    cases isAt

theorem Ordered.createChild (ordered : tree.Ordered) (known : parent < tree.nodes.size) :
    (tree.createChild parent).2.Ordered := by
  have size := size_createChild tree parent
  constructor
  · exact size ▸ Nat.zero_lt_succ _
  · intro scope child member
    obtain ⟨place, isAt⟩ := List.mem_iff_getElem?.mp member
    rcases createChild_cases known isAt with before | ⟨rfl, rfl, -⟩
    · exact ordered.lt_child (List.mem_of_getElem? before)
    · exact known
  · intro scope child member
    obtain ⟨place, isAt⟩ := List.mem_iff_getElem?.mp member
    rw [size]
    rcases createChild_cases known isAt with before | ⟨-, rfl, -⟩
    · exact Nat.lt_succ_of_lt (ordered.child_lt (List.mem_of_getElem? before))
    · exact Nat.lt_succ_self _
  · intro scope child place isAt
    rcases createChild_cases known isAt with before | ⟨-, rfl, rfl⟩
    · rw [index_createChild_of_lt known (ordered.child_lt (List.mem_of_getElem? before)), ordered.index before]
    · exact index_createChild_new known

/-- Scopes other than the new one are listed as often as before. -/
theorem Ordered.count_within_old (ordered : tree.Ordered) (known : parent < tree.nodes.size) {other : Nat}
    (isOther : other ≠ tree.nodes.size) (levels : Nat) (isScope : scope < tree.nodes.size) :
    ((tree.createChild parent).2.within levels scope).count other = (tree.within levels scope).count other := by
  induction levels generalizing scope with
  | zero => rfl
  | succ levels ih =>
      have inside : ((tree.children scope).map (List.count other ∘ (tree.createChild parent).2.within levels)).sum =
          ((tree.children scope).map (List.count other ∘ tree.within levels)).sum :=
        congrArg List.sum (List.map_congr_left fun child member => ih (ordered.child_lt member))
      rw [within, within, List.count_cons, List.count_cons, List.count_flatMap, List.count_flatMap]
      by_cases isParent : scope = parent
      · have nothing : ((tree.createChild parent).2.within levels tree.nodes.size).count other = 0 := by
          cases levels with
          | zero => rfl
          | succ levels =>
              rw [within, children_createChild_new known]
              simp [isOther.symm]
        subst isParent
        rw [children_createChild_self known, List.map_append, List.sum_append, inside]
        simp [nothing]
      · rw [children_createChild_of_ne isScope isParent, inside]

/-- The new scope is listed as often as the one that it was created in, one level further down. -/
theorem Ordered.count_within_new (ordered : tree.Ordered) (known : parent < tree.nodes.size) (levels : Nat)
    (isScope : scope < tree.nodes.size) :
    ((tree.createChild parent).2.within (levels + 1) scope).count tree.nodes.size =
      (tree.within levels scope).count parent := by
  have notNew : (scope == tree.nodes.size) = false := beq_false_of_ne (Nat.ne_of_lt isScope)
  induction levels generalizing scope with
  | zero => simp [within, Nat.ne_of_lt isScope, List.count_eq_zero]
  | succ levels ih =>
      have inside : ((tree.children scope).map
            (List.count tree.nodes.size ∘ (tree.createChild parent).2.within (levels + 1))).sum =
          ((tree.children scope).map (List.count parent ∘ tree.within levels)).sum :=
        congrArg List.sum (List.map_congr_left fun child member => ih (ordered.child_lt member) (beq_false_of_ne
          (Nat.ne_of_lt (ordered.child_lt member))))
      rw [within, within, List.count_cons, List.count_cons, List.count_flatMap, List.count_flatMap, notNew]
      by_cases isParent : scope = parent
      · have once : ((tree.createChild parent).2.within (levels + 1) tree.nodes.size).count tree.nodes.size = 1 := by
          rw [within, children_createChild_new known]
          simp
        subst isParent
        rw [children_createChild_self known, List.map_append, List.sum_append, inside]
        simp [once]
      · rw [children_createChild_of_ne isScope isParent, inside, beq_false_of_ne isParent]

theorem within_of_skeleton (same : after.skeleton = tree.skeleton) (levels : Nat) (scope : ScopeId) :
    after.within levels scope = tree.within levels scope := by
  induction levels generalizing scope with
  | zero => rfl
  | succ levels ih =>
      rw [within, within, ← children_skeleton after, same, children_skeleton]
      exact congrArg _ (List.flatMap_congr fun child _ => ih child)

theorem subtree_of_skeleton (same : after.skeleton = tree.skeleton) (scope : ScopeId) :
    after.subtree scope = tree.subtree scope := by
  rw [subtree, within_of_skeleton same, ← size_skeleton after, same, size_skeleton, subtree]

/-! ### Trees that were made scope by scope -/

/-- The trees that come from creating scopes one after the other, each in one that exists. In between, variables may
be added and made local to scopes. -/
inductive Created : ScopeTree → Prop
  | initial : Created .initial
  | createChild {tree : ScopeTree} {parent : ScopeId} : Created tree → parent < tree.nodes.size →
      Created (tree.createChild parent).2
  | allocate {tree : ScopeTree} (info : Variable) : Created tree → Created (tree.allocate info).2
  | attach {tree : ScopeTree} (scope : ScopeId) (id : VariableId) : Created tree → Created (tree.attach scope id)

theorem Created.ordered (created : tree.Created) : tree.Ordered := by
  induction created with
  | initial =>
      have children (scope : Nat) : ScopeTree.initial.children scope = [] := by
        cases scope with
        | zero => rfl
        | succ scope => exact children_of_size_le (Nat.le_add_left 1 scope)
      constructor
      · exact Nat.zero_lt_one
      all_goals
        intros
        simp_all
  | createChild _ known ordered => exact ordered.createChild known
  | allocate info _ ordered => exact ordered.of_skeleton (skeleton_of_nodes rfl)
  | attach scope id _ ordered => exact ordered.of_skeleton (skeleton_attach _ scope id)

theorem Ordered.subtree_createChild_perm (ordered : tree.Ordered) (known : parent < tree.nodes.size)
    (listed : (tree.subtree root).Perm (List.range tree.nodes.size)) :
    ((tree.createChild parent).2.subtree root).Perm (List.range (tree.createChild parent).2.nodes.size) := by
  have occurrences (other : Nat) : (tree.subtree root).count other = (List.range tree.nodes.size).count other :=
    List.perm_iff_count.mp listed other
  rw [subtree, size_createChild, List.range_succ]
  refine List.perm_iff_count.mpr fun other => ?_
  rw [List.count_append, List.count_singleton]
  by_cases isNew : other = tree.nodes.size
  · have notOld : (List.range tree.nodes.size).count tree.nodes.size = 0 :=
      List.count_eq_zero_of_not_mem List.not_mem_range_self
    have once : (List.range tree.nodes.size).count parent = 1 :=
      List.count_eq_one_of_mem List.nodup_range (List.mem_range.mpr known)
    rw [isNew, ordered.count_within_new known _ ordered.root_lt, ← subtree, occurrences, once, notOld, beq_self_eq_true]
    rfl
  · have deeper : tree.within (tree.nodes.size + 1) root = tree.subtree root :=
      ordered.within_eq ordered.root_lt (by omega) (by omega)
    rw [ordered.count_within_old known isNew _ ordered.root_lt, deeper, occurrences, beq_false_of_ne (Ne.symm isNew)]
    rfl

/-- The pre-order of a tree that was made scope by scope has every scope once. -/
theorem Created.preorder_perm (created : tree.Created) :
    (tree.preorder.map Prod.fst).Perm (List.range tree.nodes.size) := by
  rw [map_fst_preorder]
  induction created with
  | initial => exact .refl _
  | createChild created known listed => exact created.ordered.subtree_createChild_perm known listed
  | @allocate tree info _ listed =>
      have same : (tree.allocate info).2.skeleton = tree.skeleton := skeleton_of_nodes rfl
      rw [subtree_of_skeleton same]
      exact listed
  | @attach tree scope id _ listed =>
      have same := skeleton_attach tree scope id
      rw [subtree_of_skeleton same, ← size_skeleton, same, size_skeleton]
      exact listed

end ScopeTree

end CoolLang
