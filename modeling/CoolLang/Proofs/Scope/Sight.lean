import CoolLang.Proofs.Scope.Growth
import CoolLang.Typing.Survey
import Mathlib.Data.List.Find

/-!
What is in sight from a scope. In a tree whose scopes know where they stand, a name means the first
variable of that name in a list: the variables of the scope, followed by what is in sight from the scope
around it (`ScopeTree.Sees.child`). A tree that grows leaves what is in sight from its scopes
(`ScopeTree.Sees.of_stage`).
-/

namespace CoolLang

namespace ScopeTree

/-- Every scope has a parent of a smaller number that knows it as a child, and variables that exist. -/
structure WellFormed (tree : ScopeTree) : Prop where
  parents : ∀ scope parent, tree.parent? scope = some parent → parent < scope
  children : ∀ scope, ∀ child ∈ tree.children scope,
    child < tree.nodes.size ∧ tree.parent? child = some scope
  locals : ∀ scope, ∀ id ∈ tree.locals scope, id < tree.vars.size

/-- A tree that has grown, with what it was grown from. -/
structure Stage (tree after : ScopeTree) : Prop where
  size_le : tree.nodes.size ≤ after.nodes.size
  parents : ∀ scope < tree.nodes.size, after.parent? scope = tree.parent? scope
  locals : ∀ scope < tree.nodes.size, after.locals scope = tree.locals scope
  children : ∀ scope < tree.nodes.size, tree.children scope <+: after.children scope
  vars_le : tree.vars.size ≤ after.vars.size
  vars : ∀ id < tree.vars.size, after.variableAt id = tree.variableAt id

/-- Whether a name means in a scope what it means in a list of variables. -/
def Sees (tree : ScopeTree) (scope : ScopeId) (env : List Variable) : Prop :=
  ∀ name, (tree.find? scope name).map tree.variableAt = env.find? fun info => info.name == name

variable {tree after final : ScopeTree} {scope inner : ScopeId} {env : List Variable}

theorem Stage.refl (tree : ScopeTree) : tree.Stage tree :=
  ⟨Nat.le_refl _, fun _ _ => rfl, fun _ _ => rfl, fun _ _ => List.prefix_rfl, Nat.le_refl _,
    fun _ _ => rfl⟩

theorem Stage.trans (one : tree.Stage after) (two : after.Stage final) : tree.Stage final where
  size_le := Nat.le_trans one.size_le two.size_le
  parents scope known :=
    (two.parents scope (Nat.lt_of_lt_of_le known one.size_le)).trans (one.parents scope known)
  locals scope known :=
    (two.locals scope (Nat.lt_of_lt_of_le known one.size_le)).trans (one.locals scope known)
  children scope known :=
    (one.children scope known).trans (two.children scope (Nat.lt_of_lt_of_le known one.size_le))
  vars_le := Nat.le_trans one.vars_le two.vars_le
  vars id known := (two.vars id (Nat.lt_of_lt_of_le known one.vars_le)).trans (one.vars id known)

theorem Stage.slots (stage : tree.Stage after) (wellFormed : tree.WellFormed)
    (known : scope < tree.nodes.size) : after.slots scope = tree.slots scope := by
  rw [ScopeTree.slots, stage.locals scope known, ScopeTree.slots]
  exact List.map_congr_left fun id member => stage.vars id (wellFormed.locals scope id member)

theorem child_of_getElem? {place : Nat} (isChild : (tree.children scope)[place]? = some inner) :
    tree.child scope place = inner := by
  rw [ScopeTree.child, isChild]
  rfl

/-- A child stays where it is. -/
theorem Stage.child (stage : tree.Stage after) (known : scope < tree.nodes.size) {place : Nat}
    (isChild : (tree.children scope)[place]? = some inner) : after.child scope place = inner := by
  obtain ⟨more, children⟩ := stage.children scope known
  refine child_of_getElem? ?_
  rw [← children, List.getElem?_append_left (List.getElem?_eq_some_iff.mp isChild).1, isChild]

/-! ### Scopes around a scope -/

/-- The scopes around a scope are the same as long as its number is small enough. -/
theorem outward_of_stage (wellFormed : tree.WellFormed)
    (parents : ∀ scope < tree.nodes.size, after.parent? scope = tree.parent? scope) {one two : Nat}
    (known : scope < tree.nodes.size) (enough : scope < one) (enough' : scope < two) :
    after.outward one (some scope) = tree.outward two (some scope) := by
  induction scope using Nat.strong_induction_on generalizing one two with
  | _ scope ih =>
      obtain ⟨one, rfl⟩ := Nat.exists_eq_succ_of_ne_zero (Nat.ne_of_gt (Nat.zero_lt_of_lt enough))
      obtain ⟨two, rfl⟩ := Nat.exists_eq_succ_of_ne_zero (Nat.ne_of_gt (Nat.zero_lt_of_lt enough'))
      rw [outward, outward, parents scope known]
      cases isParent : tree.parent? scope with
      | none => cases one <;> cases two <;> rfl
      | some parent =>
          have smaller := wellFormed.parents scope parent isParent
          rw [ih parent smaller (Nat.lt_trans smaller known)
            (Nat.lt_of_lt_of_le smaller (Nat.le_of_lt_succ enough))
            (Nat.lt_of_lt_of_le smaller (Nat.le_of_lt_succ enough'))]

theorem mem_outward_le (wellFormed : tree.WellFormed) {count : Nat} {around : ScopeId}
    (member : around ∈ tree.outward count (some scope)) : around ≤ scope := by
  induction count generalizing scope with
  | zero => cases member
  | succ count ih =>
      rcases List.mem_cons.mp member with rfl | outside
      · exact Nat.le_refl _
      · cases isParent : tree.parent? scope with
        | none =>
            rw [isParent] at outside
            cases count <;> cases outside
        | some parent =>
            rw [isParent] at outside
            exact Nat.le_trans (ih outside) (Nat.le_of_lt (wellFormed.parents scope parent isParent))

theorem find?_inner (wellFormed : tree.WellFormed) (known : inner < tree.nodes.size)
    (isParent : tree.parent? inner = some scope) (name : String) :
    tree.find? inner name = (tree.local? inner name).or (tree.find? scope name) := by
  have smaller := wellFormed.parents inner scope isParent
  have around : tree.enclosing inner = inner :: tree.enclosing scope := by
    obtain ⟨size, isSize⟩ := Nat.exists_eq_succ_of_ne_zero (Nat.ne_of_gt (Nat.zero_lt_of_lt known))
    have less : scope < size := Nat.lt_of_lt_of_le smaller (Nat.le_of_lt_succ (isSize ▸ known))
    rw [enclosing, enclosing, isSize, outward, isParent, outward_of_stage wellFormed (fun _ _ => rfl)
      (Nat.lt_trans smaller known) less (Nat.lt_succ_of_lt less)]
  rw [find?, around, List.findSome?_cons, find?]
  cases tree.local? inner name <;> rfl

/-- A name means a local where there is one of that name. -/
theorem find?_of_local? (tree : ScopeTree) (filled : 0 < tree.nodes.size) {name : String} {id : VariableId}
    (found : tree.local? scope name = some id) : tree.find? scope name = some id := by
  obtain ⟨size, isSize⟩ := Nat.exists_eq_succ_of_ne_zero (Nat.ne_of_gt filled)
  rw [find?, enclosing, isSize, outward, List.findSome?_cons, found]

theorem map_local? (tree : ScopeTree) (scope : ScopeId) (name : String) :
    (tree.local? scope name).map tree.variableAt =
      (tree.slots scope).find? fun info => info.name == name := by
  rw [local?, slots, List.find?_map]
  rfl

/-- In sight from a child are its variables and what is in sight from its parent. -/
theorem Sees.child (sees : tree.Sees scope env) (wellFormed : tree.WellFormed)
    (known : inner < tree.nodes.size) (isParent : tree.parent? inner = some scope) :
    tree.Sees inner (tree.slots inner ++ env) := by
  intro name
  rw [find?_inner wellFormed known isParent, List.find?_append, ← map_local?, ← sees name]
  cases tree.local? inner name <;> rfl

/-- From the root, only its own variables are in sight. -/
theorem sees_root (known : scope < tree.nodes.size) (isRoot : tree.parent? scope = none) :
    tree.Sees scope (tree.slots scope) := by
  intro name
  obtain ⟨size, isSize⟩ := Nat.exists_eq_succ_of_ne_zero (Nat.ne_of_gt (Nat.zero_lt_of_lt known))
  have alone : tree.enclosing scope = [scope] := by
    rw [enclosing, isSize, outward, isRoot]
    cases size <;> rfl
  rw [find?, alone, List.findSome?_cons, ← map_local?]
  cases tree.local? scope name <;> rfl

/-- Growing changes nothing of what was in sight. -/
theorem Sees.of_stage (sees : tree.Sees scope env) (stage : tree.Stage after)
    (wellFormed : tree.WellFormed) (known : scope < tree.nodes.size) : after.Sees scope env := by
  intro name
  have around : after.enclosing scope = tree.enclosing scope :=
    outward_of_stage wellFormed stage.parents known (Nat.lt_of_lt_of_le known stage.size_le) known
  have same : ∀ inside ∈ tree.enclosing scope, after.local? inside name = tree.local? inside name := by
    intro inside member
    have isOld := Nat.lt_of_le_of_lt (mem_outward_le wellFormed member) known
    rw [local?, stage.locals inside isOld, local?]
    refine List.find?_congr fun id isLocal => ?_
    rw [stage.vars id (wellFormed.locals inside id isLocal)]
  have found : after.find? scope name = tree.find? scope name := by
    rw [find?, around, find?]
    generalize tree.enclosing scope = scopes at same
    induction scopes with
    | nil => rfl
    | cons first scopes ih =>
        obtain ⟨one, later⟩ := List.forall_mem_cons.mp same
        rw [List.findSome?_cons, List.findSome?_cons, one, ih later]
  rw [← sees name, found]
  cases isFound : tree.find? scope name with
  | none => rfl
  | some id =>
      obtain ⟨inside, member, isLocal⟩ := List.exists_of_findSome?_eq_some isFound
      have isOld := wellFormed.locals inside id (List.mem_of_find?_eq_some isLocal)
      exact congrArg some (stage.vars id isOld)

end ScopeTree

end CoolLang
