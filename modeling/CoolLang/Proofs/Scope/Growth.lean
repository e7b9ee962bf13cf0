import CoolLang.Scope.Nest
import Mathlib.Data.List.Perm.Basic
import Mathlib.Data.List.Range
import Mathlib.Tactic.Common

/-!
How a scope tree grows. Creating the scopes of nests one after the other numbers them in pre-order, and
leaves all scopes but the one they are created in as they were (`Nest.growAll_grown`).
-/

namespace CoolLang

variable {tree after final : ScopeTree} {parent scope : ScopeId} {nest : Nest} {nests : List Nest}

namespace ScopeTree

/-! ### One scope more -/

@[simp]
theorem size_createChild (tree : ScopeTree) (parent : ScopeId) :
    (tree.createChild parent).2.nodes.size = tree.nodes.size + 1 := by
  simp [createChild]

@[simp]
theorem fst_createChild (tree : ScopeTree) (parent : ScopeId) :
    (tree.createChild parent).1 = tree.nodes.size :=
  rfl

theorem node_createChild_new (known : parent < tree.nodes.size) :
    (tree.createChild parent).2.node tree.nodes.size =
      ⟨some parent, #[], #[], (tree.children parent).length⟩ := by
  have other := Nat.ne_of_lt known
  simp only [createChild, node, Array.getElem?_modify, if_neg other, Array.getElem?_push_size]
  rfl

theorem node_createChild_self (known : parent < tree.nodes.size) :
    (tree.createChild parent).2.node parent =
      { tree.node parent with children := (tree.node parent).children.push tree.nodes.size } := by
  have other := Nat.ne_of_lt known
  simp [createChild, node, Array.getElem?_modify, Array.getElem?_push, other, known]

theorem node_createChild_of_ne (known : scope < tree.nodes.size) (other : scope ≠ parent) :
    (tree.createChild parent).2.node scope = tree.node scope := by
  have notNew := Nat.ne_of_lt known
  simp [createChild, node, Array.getElem?_modify, Array.getElem?_push, other.symm, notNew]

theorem children_of_node (same : after.node scope = tree.node scope) :
    after.children scope = tree.children scope := by
  rw [children, same, children]

theorem index_of_node (same : after.node scope = tree.node scope) :
    after.index scope = tree.index scope := by
  rw [index, same, index]

/-! ### Skeletons -/

@[simp]
theorem size_skeleton (tree : ScopeTree) : tree.skeleton.nodes.size = tree.nodes.size := by
  simp [skeleton]

theorem node_skeleton (tree : ScopeTree) (scope : ScopeId) :
    tree.skeleton.node scope = { tree.node scope with locals := #[] } := by
  rw [node, skeleton, Array.getElem?_map, node]
  cases tree.nodes[scope]? <;> rfl

theorem children_skeleton (tree : ScopeTree) (scope : ScopeId) :
    tree.skeleton.children scope = tree.children scope := by
  rw [children, node_skeleton, children]

theorem index_skeleton (tree : ScopeTree) (scope : ScopeId) :
    tree.skeleton.index scope = tree.index scope := by
  rw [index, node_skeleton, index]

theorem skeleton_createChild (tree : ScopeTree) (parent : ScopeId) :
    (tree.createChild parent).2.skeleton = (tree.skeleton.createChild parent).2 := by
  have children : (tree.skeleton.node parent).children = (tree.node parent).children := by
    rw [node_skeleton]
  unfold createChild
  rw [children]
  simp only [skeleton, Array.size_map, ScopeTree.mk.injEq, and_true]
  apply Array.ext_getElem?
  intro place
  simp only [Array.getElem?_map, Array.getElem?_modify, Array.getElem?_push, Array.size_map]
  by_cases isParent : parent = place
  · simp only [if_pos isParent]
    split <;> simp only [Option.map_some, Option.map_map, Function.comp_def]
  · simp only [if_neg isParent]
    split <;> rfl

theorem skeleton_attach (tree : ScopeTree) (scope : ScopeId) (id : VariableId) :
    (tree.attach scope id).skeleton = tree.skeleton := by
  simp only [attach, skeleton, ScopeTree.mk.injEq, and_true]
  apply Array.ext_getElem?
  intro place
  simp only [Array.getElem?_map, Array.getElem?_modify]
  split
  · cases tree.nodes[place]? <;> rfl
  · rfl

/-- What is found after a change of one element of an array. -/
theorem getD_modify {α : Type} (values : Array α) (place : Nat) (change : α → α) (other : Nat) (default : α) :
    (values.modify place change)[other]?.getD default =
      if other = place ∧ place < values.size then change (values[other]?.getD default)
      else values[other]?.getD default := by
  rw [Array.getElem?_modify]
  by_cases same : place = other
  · subst same
    by_cases known : place < values.size
    · rw [if_pos rfl, if_pos ⟨rfl, known⟩, Array.getElem?_eq_getElem known]
      rfl
    · rw [if_pos rfl, if_neg fun both => known both.2, Array.getElem?_eq_none (Nat.le_of_not_lt known)]
      rfl
  · rw [if_neg same, if_neg fun both => same both.1.symm]

section

variable {one two : ScopeTree} (same : one.nodes = two.nodes)
include same

theorem skeleton_of_nodes : one.skeleton = two.skeleton := by
  rw [skeleton, same, skeleton]

theorem node_of_nodes : one.node = two.node := by
  funext scope
  rw [node, node, same]

theorem children_of_nodes : one.children = two.children := by
  funext scope
  rw [children, children, node_of_nodes same]

theorem locals_of_nodes : one.locals = two.locals := by
  funext scope
  rw [locals, locals, node_of_nodes same]

theorem index_of_nodes : one.index = two.index := by
  funext scope
  rw [index, index, node_of_nodes same]

end

theorem variableAt_setVariable (tree : ScopeTree) (id : VariableId) (info : Variable) (other : VariableId) :
    (tree.setVariable id info).variableAt other =
      if other = id ∧ id < tree.vars.size then info else tree.variableAt other :=
  getD_modify tree.vars id (fun _ => info) other default

theorem skeleton_define (tree : ScopeTree) (scope : ScopeId) (info : Variable) :
    (tree.define scope info).2.skeleton = tree.skeleton :=
  skeleton_attach _ scope _

end ScopeTree

namespace Nest

/-! ### The scopes of nests -/

mutual

/-- The scopes of a tree that a nest tells of, in pre-order. -/
def scopes (tree : ScopeTree) : Nest → ScopeId → List ScopeId
  | .scope inner, id => id :: scopesAll tree inner (tree.children id)

def scopesAll (tree : ScopeTree) : List Nest → List ScopeId → List ScopeId
  | [], _ => []
  | _ :: _, [] => []
  | nest :: nests, id :: ids => scopes tree nest id ++ scopesAll tree nests ids

end

mutual

/-- Creates the scopes of a nest in a scope. -/
def grow (tree : ScopeTree) (parent : ScopeId) : Nest → ScopeTree
  | .scope inner => growAll (tree.createChild parent).2 (tree.createChild parent).1 inner

def growAll (tree : ScopeTree) (parent : ScopeId) : List Nest → ScopeTree
  | [] => tree
  | nest :: nests => growAll (grow tree parent nest) parent nests

end

theorem AllAt.length_eq {place : Nat} : {nests : List Nest} → {ids : List ScopeId} →
    AllAt tree place nests ids → nests.length = ids.length
  | [], [], _ => rfl
  | _ :: _, _ :: _, all => congrArg (· + 1) (AllAt.length_eq all.2.2)
  | [], _ :: _, all | _ :: _, [], all => all.elim

/-- A tree after the scopes of nests have been created in a scope, where they are `added`. -/
structure Grown (parent : ScopeId) (nests : List Nest) (added : List ScopeId)
    (tree after : ScopeTree) : Prop where
  size_le : tree.nodes.size ≤ after.nodes.size
  frame : ∀ scope < tree.nodes.size, scope ≠ parent → after.node scope = tree.node scope
  children : after.children parent = tree.children parent ++ added
  index : after.index parent = tree.index parent
  /-- The new scopes are as the nests tell in any tree that leaves them as they are. -/
  new : ∀ final : ScopeTree,
    (∀ scope, tree.nodes.size ≤ scope → scope < after.nodes.size → final.node scope = after.node scope) →
      AllAt final (tree.children parent).length nests added ∧
        scopesAll final nests added =
          List.range' tree.nodes.size (after.nodes.size - tree.nodes.size)

/-- The numbers between two sizes, by a size in between. -/
theorem range'_split {first second third : Nat} (one : first ≤ second) (two : second ≤ third) :
    List.range' first (second - first) ++ List.range' second (third - second) =
      List.range' first (third - first) := by
  have later : List.range' second (third - second) =
      List.range' (first + (second - first)) (third - second) := by
    rw [Nat.add_sub_cancel' one]
  rw [later, List.range'_append_1]
  congr 1
  omega

mutual

theorem grow_grown {tree : ScopeTree} {parent : ScopeId} (known : parent < tree.nodes.size) :
    (nest : Nest) → Grown parent [nest] [tree.nodes.size] tree (grow tree parent nest)
  | .scope inner => by
      have fresh : tree.nodes.size < (tree.createChild parent).2.nodes.size := by simp
      obtain ⟨added, grown⟩ := growAll_grown fresh inner
      have size := grown.size_le
      rw [ScopeTree.size_createChild] at size
      have created := ScopeTree.node_createChild_new known
      have isSelf : (grow tree parent (.scope inner)).node parent =
          { tree.node parent with children := (tree.node parent).children.push tree.nodes.size } := by
        rw [grow, ScopeTree.fst_createChild,
          grown.frame parent (Nat.lt_trans known fresh) (Nat.ne_of_lt known),
          ScopeTree.node_createChild_self known]
      rw [grow, ScopeTree.fst_createChild] at isSelf ⊢
      refine ⟨by omega, fun scope old other => ?_, ?_, ?_, fun final same => ⟨?_, ?_⟩⟩
      · rw [grown.frame scope (Nat.lt_trans old fresh) (Nat.ne_of_lt old),
          ScopeTree.node_createChild_of_ne old other]
      · rw [ScopeTree.children, isSelf, ScopeTree.children, Array.toList_push]
      · rw [ScopeTree.index, isSelf, ScopeTree.index]
      all_goals
        have inside := grown.new final fun scope old new => same scope (by simp at old; omega) new
        have isNew := same tree.nodes.size (Nat.le_refl _) (by omega)
        have nothing : (tree.createChild parent).2.children tree.nodes.size = [] := by
          rw [ScopeTree.children, created]
        have children := ScopeTree.children_of_node isNew
        rw [grown.children, nothing, List.nil_append] at children
        rw [nothing, ScopeTree.size_createChild, List.length_nil] at inside
      · have place : (growAll (tree.createChild parent).2 tree.nodes.size inner).index tree.nodes.size =
            (tree.children parent).length := by
          rw [grown.index, ScopeTree.index, created]
        refine ⟨(ScopeTree.index_of_node isNew).trans place, ?_, trivial⟩
        rw [At, children]
        exact inside.1
      · rw [scopesAll, scopesAll, scopes, children, inside.2, List.append_nil, ← List.range'_succ]
        congr 1
        omega

theorem growAll_grown {tree : ScopeTree} {parent : ScopeId} (known : parent < tree.nodes.size) :
    (nests : List Nest) → ∃ added, Grown parent nests added tree (growAll tree parent nests)
  | [] => ⟨[], by
      rw [growAll]
      refine ⟨Nat.le_refl _, fun _ _ _ => rfl, (List.append_nil _).symm, rfl, fun _ _ => ⟨trivial, ?_⟩⟩
      rw [Nat.sub_self]
      rfl⟩
  | nest :: nests => by
      have one := grow_grown known nest
      have size := one.size_le
      obtain ⟨added, two⟩ := growAll_grown (Nat.lt_of_lt_of_le known size) nests
      have size' := two.size_le
      refine ⟨tree.nodes.size :: added, ?_⟩
      rw [growAll]
      refine ⟨by omega, fun scope old other => ?_, ?_, ?_, fun final same => ?_⟩
      · rw [two.frame scope (by omega) other, one.frame scope old other]
      · rw [two.children, one.children, List.append_assoc, List.singleton_append]
      · rw [two.index, one.index]
      · have first := one.new final fun scope old new => by
          rw [same scope old (by omega), two.frame scope new (Nat.ne_of_gt (Nat.lt_of_lt_of_le known old))]
        have later := two.new final fun scope old new => same scope (by omega) new
        rw [one.children, List.length_append, List.length_singleton] at later
        refine ⟨⟨first.1.1, first.1.2.1, later.1⟩, ?_⟩
        have whole := first.2
        rw [scopesAll, scopesAll, List.append_nil] at whole
        rw [scopesAll, whole, later.2, range'_split size size']

end

/-! ### Scopes that exist -/

/-- Creates the scopes of nests inside scopes that exist already. -/
def growEach (tree : ScopeTree) : List ScopeId → List Nest → ScopeTree
  | id :: ids, .scope inner :: nests => growEach (growAll tree id inner) ids nests
  | _, _ => tree

structure GrownEach (ids : List ScopeId) (nests : List Nest) (tree after : ScopeTree) : Prop where
  size_le : tree.nodes.size ≤ after.nodes.size
  frame : ∀ scope < tree.nodes.size, scope ∉ ids → after.node scope = tree.node scope
  index : ∀ id < tree.nodes.size, after.index id = tree.index id
  new : ∀ final : ScopeTree,
    (∀ scope, scope ∈ ids ∨ tree.nodes.size ≤ scope → scope < after.nodes.size →
      final.node scope = after.node scope) →
      List.Forall₂ (At final) nests ids ∧
        (scopesAll final nests ids).Perm
          (ids ++ List.range' tree.nodes.size (after.nodes.size - tree.nodes.size))

theorem growEach_grown {tree : ScopeTree} {ids : List ScopeId} {nests : List Nest}
    (enough : nests.length = ids.length) (known : ∀ id ∈ ids, id < tree.nodes.size)
    (distinct : ids.Nodup) (empty : ∀ id ∈ ids, tree.children id = []) :
    GrownEach ids nests tree (growEach tree ids nests) := by
  induction ids generalizing tree nests with
  | nil =>
      obtain rfl := List.length_eq_zero_iff.mp enough
      rw [growEach]
      · refine ⟨Nat.le_refl _, fun _ _ _ => rfl, fun _ _ => rfl, fun _ _ => ⟨.nil, ?_⟩⟩
        rw [scopesAll, Nat.sub_self]
        exact .refl _
      · intros
        contradiction
  | cons id ids ih =>
      obtain _ | ⟨⟨inner⟩, nests⟩ := nests
      · cases enough
      have isKnown := known id List.mem_cons_self
      obtain ⟨absent, distinct⟩ := List.nodup_cons.mp distinct
      obtain ⟨added, one⟩ := growAll_grown isKnown inner
      have size := one.size_le
      have apart {other : ScopeId} (member : other ∈ ids) : other ≠ id := fun same =>
        absent (same ▸ member)
      have two := @ih (growAll tree id inner) nests (Nat.succ.inj enough)
        (fun other member => Nat.lt_of_lt_of_le (known other (List.mem_cons_of_mem _ member)) size)
        distinct fun other member => by
          rw [ScopeTree.children_of_node (one.frame other (known other (List.mem_cons_of_mem _ member))
            (apart member)), empty other (List.mem_cons_of_mem _ member)]
      have size' := two.size_le
      rw [growEach]
      refine ⟨Nat.le_trans size size', fun scope old other => ?_, fun scope old => ?_,
        fun final same => ?_⟩
      · have notFirst : scope ≠ id := fun isFirst => other (isFirst ▸ List.mem_cons_self)
        have notLater : scope ∉ ids := fun isLater => other (List.mem_cons_of_mem _ isLater)
        rw [two.frame scope (Nat.lt_of_lt_of_le old size) notLater, one.frame scope old notFirst]
      · rw [two.index scope (Nat.lt_of_lt_of_le old size)]
        by_cases isFirst : scope = id
        · rw [isFirst, one.index]
        · exact ScopeTree.index_of_node (one.frame scope old isFirst)
      · have before {scope : ScopeId} (old : scope < (growAll tree id inner).nodes.size)
            (notLater : scope ∉ ids) (isOwn : scope = id ∨ tree.nodes.size ≤ scope) :
            final.node scope = (growAll tree id inner).node scope := by
          have isFirst (first : scope = id) : scope ∈ id :: ids := first ▸ List.mem_cons_self
          rw [same scope (isOwn.imp_left isFirst) (Nat.lt_of_lt_of_le old size'),
            two.frame scope old notLater]
        have first := one.new final fun scope old new =>
          before new
            (fun later => Nat.not_lt.mpr old (known scope (List.mem_cons_of_mem _ later))) (Or.inr old)
        have later := two.new final fun scope own new =>
          same scope (own.imp (List.mem_cons_of_mem _) (Nat.le_trans size)) new
        have children : final.children id = added := by
          rw [ScopeTree.children_of_node (before (Nat.lt_of_lt_of_le isKnown size) absent (Or.inl rfl)),
            one.children, empty id List.mem_cons_self, List.nil_append]
        rw [empty id List.mem_cons_self, List.length_nil, ← children] at first
        refine ⟨.cons (by rw [At]; exact first.1) later.1, ?_⟩
        rw [scopesAll, scopes, first.2]
        refine (later.2.append_left _).trans ?_
        rw [← range'_split size size']
        simp only [List.cons_append, ← List.append_assoc]
        exact (List.perm_append_comm.append_right _).cons id

/-! ### A whole tree -/

/-- A tree whose root has so many scopes, with nothing inside them. -/
def roots (count : Nat) : ScopeTree :=
  growAll .initial ScopeTree.root (List.replicate count (.scope []))

/-- The tree whose root has the scopes of nests, all of them created before the scopes inside them. -/
def outline (nests : List Nest) : ScopeTree :=
  growEach (roots nests.length) (List.range' 1 nests.length) nests

/-- Scopes with nothing inside them. -/
theorem AllAt.of_empty {place : Nat} : {count : Nat} → {ids : List ScopeId} →
    AllAt tree place (List.replicate count (.scope [])) ids →
      scopesAll tree (List.replicate count (.scope [])) ids = ids ∧ ∀ id ∈ ids, tree.children id = []
  | 0, [], _ => ⟨rfl, nofun⟩
  | count + 1, id :: ids, ⟨_, nothing, later⟩ => by
      have none : tree.children id = [] := by
        unfold At at nothing
        cases children : tree.children id with
        | nil => rfl
        | cons first others =>
            rw [children] at nothing
            exact nothing.elim
      obtain ⟨all, empty⟩ := AllAt.of_empty later
      refine ⟨?_, List.forall_mem_cons.mpr ⟨none, empty⟩⟩
      rw [List.replicate_succ, scopesAll, scopes, none, all]
      rfl
  | 0, _ :: _, all | _ + 1, [], all => all.elim

/-- What is inside scopes can change while their places stay. -/
theorem AllAt.of_forall₂ {place : Nat} {empty nests : List Nest} {ids : List ScopeId}
    (places : AllAt tree place empty ids) (same : ∀ id ∈ ids, final.index id = tree.index id)
    (all : List.Forall₂ (At final) nests ids) : AllAt final place nests ids := by
  induction all generalizing place empty with
  | nil => trivial
  | cons fits _ ih =>
      cases empty with
      | nil => exact places.elim
      | cons _ empty =>
          obtain ⟨isPlace, _, later⟩ := places
          obtain ⟨first, others⟩ := List.forall_mem_cons.mp same
          exact ⟨first.trans isPlace, fits, ih later others⟩

theorem roots_spec (count : Nat) :
    (roots count).nodes.size = 1 + count ∧
      (roots count).children ScopeTree.root = List.range' 1 count ∧
      (∀ id ∈ List.range' 1 count, (roots count).children id = []) ∧
      AllAt (roots count) 0 (List.replicate count (.scope [])) (List.range' 1 count) := by
  have start : ScopeTree.root < ScopeTree.initial.nodes.size := Nat.one_pos
  obtain ⟨added, grown⟩ := growAll_grown start (List.replicate count (.scope []))
  have size := grown.size_le
  obtain ⟨places, numbers⟩ := grown.new _ fun _ _ _ => rfl
  obtain ⟨all, empty⟩ := places.of_empty
  rw [all] at numbers
  have counted := congrArg List.length numbers
  rw [← places.length_eq, List.length_replicate, List.length_range'] at counted
  obtain rfl : added = List.range' 1 count := by
    rw [numbers, ← counted]
    rfl
  have whole := Nat.add_sub_cancel' size
  rw [← counted] at whole
  exact ⟨whole.symm, grown.children, empty, places⟩

theorem outline_at (nests : List Nest) :
    (Nest.scope nests).At (outline nests) ScopeTree.root ∧
      ((Nest.scope nests).scopes (outline nests) ScopeTree.root).Perm
        (List.range (outline nests).nodes.size) := by
  obtain ⟨size, children, empty, places⟩ := roots_spec nests.length
  have known (id : ScopeId) (member : id ∈ List.range' 1 nests.length) :
      id < (roots nests.length).nodes.size := by
    rw [size]
    exact (List.mem_range'_1.mp member).2
  have grown : GrownEach _ _ _ (outline nests) :=
    growEach_grown List.length_range'.symm known List.nodup_range' empty
  have isRoot := grown.frame ScopeTree.root (by rw [size]; exact Nat.lt_add_right _ Nat.one_pos)
    fun member => absurd (List.mem_range'_1.mp member).1 (by decide)
  rw [← ScopeTree.children_of_node isRoot] at children
  obtain ⟨fits, numbered⟩ := grown.new _ fun _ _ _ => rfl
  have first := range'_split (Nat.zero_le 1) (Nat.le_add_right 1 nests.length)
  have both := range'_split (Nat.zero_le (1 + nests.length)) (size ▸ grown.size_le)
  rw [Nat.add_sub_cancel_left] at first
  rw [← first] at both
  rw [At, scopes, children, List.range_eq_range', ← Nat.sub_zero (Array.size _), ← both]
  refine ⟨places.of_forall₂ (fun id member => grown.index id (known id member)) fits, ?_⟩
  rw [size] at numbered
  exact numbered.cons ScopeTree.root

end Nest

end CoolLang
