import CoolLang.Proofs.Scope.Sight

/-!
Opening a scope with variables. The new scope is the last child of its parent, its variables are those
that are declared in it, and nothing else of the tree changes (`ScopeTree.openWith_growth`).
-/

namespace CoolLang

namespace ScopeTree

/-- Adds variables as the last locals of a scope. -/
def defineAll (tree : ScopeTree) (scope : ScopeId) (infos : List Variable) : ScopeTree :=
  infos.foldl (fun tree info => (tree.define scope info).2) tree

/-- A tree in which a scope has got children, with all else as it was. -/
structure Growth (scope : ScopeId) (count : Nat) (tree after : ScopeTree) : Prop where
  stage : tree.Stage after
  wellFormed : after.WellFormed
  elsewhere : ∀ other < tree.nodes.size, other ≠ scope → after.children other = tree.children other
  more : (after.children scope).length = (tree.children scope).length + count

variable {tree after final : ScopeTree} {scope inner : ScopeId} {count first second : Nat}
  {info : Variable}

theorem Growth.refl (wellFormed : tree.WellFormed) : Growth scope 0 tree tree :=
  ⟨.refl tree, wellFormed, fun _ _ _ => rfl, rfl⟩

theorem Growth.trans (one : Growth scope first tree after) (two : Growth scope second after final) :
    Growth scope (first + second) tree final where
  stage := one.stage.trans two.stage
  wellFormed := two.wellFormed
  elsewhere other known apart :=
    (two.elsewhere other (Nat.lt_of_lt_of_le known one.stage.size_le) apart).trans
      (one.elsewhere other known apart)
  more := by rw [two.more, one.more, Nat.add_assoc]

/-! ### Variables -/

theorem variableAt_push (infos : Array Variable) (nodes : Array ScopeNode) {id : VariableId}
    (known : id < infos.size) :
    variableAt ⟨nodes, infos.push info⟩ id = (infos[id]?.getD default) := by
  rw [variableAt, Array.getElem?_push, if_neg (Nat.ne_of_lt known)]

theorem node_attach (tree : ScopeTree) (scope : ScopeId) (id : VariableId) (other : ScopeId) :
    (tree.attach scope id).node other =
      if other = scope ∧ scope < tree.nodes.size then
        { tree.node other with locals := (tree.node other).locals.push id }
      else tree.node other :=
  getD_modify tree.nodes scope (fun node => { node with locals := node.locals.push id }) other default

theorem children_attach (tree : ScopeTree) (scope : ScopeId) (id : VariableId) (other : ScopeId) :
    (tree.attach scope id).children other = tree.children other := by
  rw [children, node_attach]
  split <;> rfl

theorem parent?_attach (tree : ScopeTree) (scope : ScopeId) (id : VariableId) (other : ScopeId) :
    (tree.attach scope id).parent? other = tree.parent? other := by
  rw [parent?, node_attach]
  split <;> rfl

theorem locals_attach_self (known : scope < tree.nodes.size) (id : VariableId) :
    (tree.attach scope id).locals scope = tree.locals scope ++ [id] := by
  rw [locals, node_attach, if_pos ⟨rfl, known⟩, Array.toList_push]
  rfl

theorem locals_attach_of_ne {other : ScopeId} (apart : other ≠ scope) (id : VariableId) :
    (tree.attach scope id).locals other = tree.locals other := by
  rw [locals, node_attach, if_neg fun both => apart both.1]
  rfl

theorem node_define (tree : ScopeTree) (scope : ScopeId) (info : Variable) (other : ScopeId) :
    (tree.define scope info).2.node other =
      if other = scope ∧ scope < tree.nodes.size then
        { tree.node other with locals := (tree.node other).locals.push tree.vars.size }
      else tree.node other :=
  node_attach (tree.allocate info).2 scope tree.vars.size other

theorem children_define (tree : ScopeTree) (scope : ScopeId) (info : Variable) (other : ScopeId) :
    (tree.define scope info).2.children other = tree.children other :=
  children_attach (tree.allocate info).2 scope tree.vars.size other

theorem parent?_define (tree : ScopeTree) (scope : ScopeId) (info : Variable) (other : ScopeId) :
    (tree.define scope info).2.parent? other = tree.parent? other :=
  parent?_attach (tree.allocate info).2 scope tree.vars.size other

theorem size_define (tree : ScopeTree) (scope : ScopeId) (info : Variable) :
    (tree.define scope info).2.nodes.size = tree.nodes.size :=
  Array.size_modify ..

theorem locals_define_self (known : scope < tree.nodes.size) :
    (tree.define scope info).2.locals scope = tree.locals scope ++ [tree.vars.size] :=
  @locals_attach_self (tree.allocate info).2 scope known tree.vars.size

theorem locals_define_of_ne {other : ScopeId} (apart : other ≠ scope) :
    (tree.define scope info).2.locals other = tree.locals other :=
  @locals_attach_of_ne (tree.allocate info).2 scope other apart tree.vars.size

theorem variableAt_define {id : VariableId} (known : id < tree.vars.size) :
    (tree.define scope info).2.variableAt id = tree.variableAt id :=
  variableAt_push tree.vars _ known

theorem variableAt_define_new (tree : ScopeTree) (scope : ScopeId) (info : Variable) :
    (tree.define scope info).2.variableAt tree.vars.size = info := by
  unfold define attach allocate variableAt
  dsimp only
  rw [Array.getElem?_push_size]
  rfl

theorem define_wellFormed (wellFormed : tree.WellFormed) : (tree.define scope info).2.WellFormed := by
  refine ⟨fun other parent isParent => ?_, fun other child member => ?_, fun other id member => ?_⟩
  · rw [parent?_define] at isParent
    exact wellFormed.parents other parent isParent
  · rw [children_define] at member
    rw [size_define, parent?_define]
    exact wellFormed.children other child member
  · have size : (tree.define scope info).2.vars.size = tree.vars.size + 1 := Array.size_push ..
    rw [size]
    by_cases both : other = scope ∧ scope < tree.nodes.size
    · obtain ⟨rfl, known⟩ := both
      rw [locals_define_self known] at member
      rcases List.mem_append.mp member with old | new
      · exact Nat.lt_succ_of_lt (wellFormed.locals _ id old)
      · rw [List.mem_singleton] at new
        rw [new]
        exact Nat.lt_succ_self _
    · rw [locals, node_define, if_neg both] at member
      exact Nat.lt_succ_of_lt (wellFormed.locals other id member)

theorem slots_define_self (wellFormed : tree.WellFormed) (known : scope < tree.nodes.size) :
    (tree.define scope info).2.slots scope = tree.slots scope ++ [info] := by
  rw [slots, locals_define_self known, List.map_append, List.map_singleton, variableAt_define_new, slots]
  congr 1
  exact List.map_congr_left fun id member => variableAt_define (wellFormed.locals scope id member)

/-- Variables that are added to the newest scope change no other. -/
theorem defineAll_spec (infos : List Variable) (wellFormed : tree.WellFormed)
    (known : scope < tree.nodes.size) :
    (tree.defineAll scope infos).WellFormed ∧
      (tree.defineAll scope infos).nodes.size = tree.nodes.size ∧
      (∀ other, (tree.defineAll scope infos).children other = tree.children other) ∧
      (∀ other, (tree.defineAll scope infos).parent? other = tree.parent? other) ∧
      (∀ other ≠ scope, (tree.defineAll scope infos).locals other = tree.locals other) ∧
      tree.vars.size ≤ (tree.defineAll scope infos).vars.size ∧
      (∀ id < tree.vars.size, (tree.defineAll scope infos).variableAt id = tree.variableAt id) ∧
      (tree.defineAll scope infos).slots scope = tree.slots scope ++ infos := by
  induction infos generalizing tree with
  | nil => exact ⟨wellFormed, rfl, fun _ => rfl, fun _ => rfl, fun _ _ => rfl, Nat.le_refl _, fun _ _ => rfl,
      (List.append_nil _).symm⟩
  | cons info infos ih =>
      have more : (tree.define scope info).2.vars.size = tree.vars.size + 1 := Array.size_push ..
      have defined : (tree.define scope info).2.WellFormed := define_wellFormed wellFormed
      obtain ⟨wellFormed', size, children, parents, locals, vars_le, vars, slots⟩ :=
        ih defined (size_define tree scope info ▸ known)
      rw [more] at vars_le vars
      refine ⟨wellFormed', size.trans (size_define ..), fun other => ?_, fun other => ?_,
        fun other apart => ?_, Nat.le_of_succ_le vars_le, fun id old => ?_, ?_⟩
      · exact (children other).trans (children_define ..)
      · exact (parents other).trans (parent?_define ..)
      · exact (locals other apart).trans (locals_define_of_ne apart)
      · exact (vars id (Nat.lt_succ_of_lt old)).trans (variableAt_define old)
      · exact slots.trans (by rw [slots_define_self wellFormed known, List.append_assoc]; rfl)

/-! ### Scopes -/

theorem node_of_ge {scope : ScopeId} (unknown : tree.nodes.size ≤ scope) : tree.node scope = default := by
  rw [node, Array.getElem?_eq_none unknown]
  rfl

theorem createChild_wellFormed (wellFormed : tree.WellFormed) (known : scope < tree.nodes.size) :
    (tree.createChild scope).2.WellFormed := by
  -- every scope is the parent, the new child, or as it was
  have cases (other : ScopeId) : other = scope ∨ other = tree.nodes.size ∨
      (tree.createChild scope).2.node other = tree.node other := by
    by_cases old : other < tree.nodes.size
    · by_cases same : other = scope
      · exact Or.inl same
      · exact Or.inr (Or.inr (node_createChild_of_ne old same))
    · by_cases new : other = tree.nodes.size
      · exact Or.inr (Or.inl new)
      · refine Or.inr (Or.inr ?_)
        rw [node_of_ge (Nat.le_of_not_lt old), node_of_ge]
        rw [size_createChild]
        exact Nat.lt_of_le_of_ne (Nat.le_of_not_lt old) (Ne.symm new)
  have parent (other : ScopeId) (old : other < tree.nodes.size) :
      (tree.createChild scope).2.parent? other = tree.parent? other := by
    by_cases same : other = scope
    · rw [parent?, same, node_createChild_self known]
      rfl
    · rw [parent?, node_createChild_of_ne old same]
      rfl
  have kept (around child : ScopeId) (member : child ∈ tree.children around) :
      child < (tree.createChild scope).2.nodes.size ∧
        (tree.createChild scope).2.parent? child = some around := by
    obtain ⟨old, isParent⟩ := wellFormed.children around child member
    rw [size_createChild, parent child old]
    exact ⟨Nat.lt_succ_of_lt old, isParent⟩
  refine ⟨fun other above isParent => ?_, fun other child member => ?_, fun other id member => ?_⟩
  · rcases cases other with rfl | rfl | same
    · rw [parent other known] at isParent
      exact wellFormed.parents other above isParent
    · rw [parent?, node_createChild_new known] at isParent
      exact Option.some.inj isParent ▸ known
    · rw [parent?, same] at isParent
      exact wellFormed.parents other above isParent
  · rcases cases other with rfl | rfl | same
    · rw [children, node_createChild_self known, Array.toList_push] at member
      rcases List.mem_append.mp member with old | new
      · exact kept other child old
      · rw [List.mem_singleton] at new
        rw [new, size_createChild, parent?, node_createChild_new known]
        exact ⟨Nat.lt_succ_self _, rfl⟩
    · rw [children, node_createChild_new known] at member
      cases member
    · rw [children, same] at member
      exact kept other child member
  · rcases cases other with rfl | rfl | same
    · rw [locals, node_createChild_self known] at member
      exact wellFormed.locals other id member
    · rw [locals, node_createChild_new known] at member
      cases member
    · rw [locals, same] at member
      exact wellFormed.locals other id member

/-- Adds a scope with variables as the last child of another. -/
def openWith (tree : ScopeTree) (scope : ScopeId) (written : List Variable) : ScopeTree :=
  (tree.createChild scope).2.defineAll tree.nodes.size written

theorem vars_defineAll (tree : ScopeTree) (scope : ScopeId) (infos : List Variable) :
    (tree.defineAll scope infos).vars = tree.vars ++ infos.toArray := by
  induction infos generalizing tree with
  | nil => exact Array.append_empty.symm
  | cons info infos ih =>
      refine (ih (tree.define scope info).2).trans ?_
      rw [show (tree.define scope info).2.vars = tree.vars.push info from rfl]
      simp

theorem mem_vars_openWith {written : List Variable} (member : info ∈ (tree.openWith scope written).vars) :
    info ∈ tree.vars ∨ info ∈ written := by
  rw [openWith, vars_defineAll, Array.mem_append] at member
  exact member.imp_right List.mem_toArray.mp

theorem openWith_spec (written : List Variable) (wellFormed : tree.WellFormed)
    (known : scope < tree.nodes.size) :
    Growth scope 1 tree (tree.openWith scope written) ∧
      (tree.openWith scope written).nodes.size = tree.nodes.size + 1 ∧
      (tree.openWith scope written).children scope = tree.children scope ++ [tree.nodes.size] ∧
      (tree.openWith scope written).children tree.nodes.size = [] ∧
      (tree.openWith scope written).parent? tree.nodes.size = some scope ∧
      (tree.openWith scope written).slots tree.nodes.size = written := by
  have isNew : tree.nodes.size < (tree.createChild scope).2.nodes.size := by
    rw [size_createChild]
    exact Nat.lt_succ_self _
  obtain ⟨wellFormed', size, children', parents, locals', vars_le, vars, slots'⟩ :=
    defineAll_spec written (createChild_wellFormed wellFormed known) isNew
  have ofParent : (tree.openWith scope written).children scope =
      tree.children scope ++ [tree.nodes.size] := by
    refine (children' scope).trans ?_
    rw [children, node_createChild_self known, Array.toList_push]
    rfl
  have elsewhere (other : ScopeId) (old : other < tree.nodes.size) (apart : other ≠ scope) :
      (tree.openWith scope written).children other = tree.children other :=
    (children' other).trans (children_of_node (node_createChild_of_ne old apart))
  refine ⟨⟨⟨?_, fun other old => ?_, fun other old => ?_, fun other old => ?_, vars_le, vars⟩,
    wellFormed', elsewhere, ?_⟩, size.trans (size_createChild ..), ofParent, ?_, ?_, ?_⟩
  · rw [openWith, size, size_createChild]
    exact Nat.le_succ _
  · refine (parents other).trans ?_
    by_cases same : other = scope
    · rw [same, parent?, node_createChild_self known]
      rfl
    · rw [parent?, node_createChild_of_ne old same]
      rfl
  · refine (locals' other (Nat.ne_of_lt old)).trans ?_
    by_cases same : other = scope
    · rw [same, locals, node_createChild_self known]
      rfl
    · rw [locals, node_createChild_of_ne old same]
      rfl
  · by_cases same : other = scope
    · rw [same, ofParent]
      exact List.prefix_append ..
    · exact ⟨[], (List.append_nil _).trans (elsewhere other old same).symm⟩
  · exact (congrArg List.length ofParent).trans List.length_append
  · refine (children' _).trans ?_
    rw [children, node_createChild_new known]
  · refine (parents _).trans ?_
    rw [parent?, node_createChild_new known]
  · refine slots'.trans ?_
    rw [slots, locals, node_createChild_new known]
    rfl

/-- What grows inside a new scope grows in one child of its parent. -/
theorem Growth.inside {between : ScopeTree} (known : scope < tree.nodes.size)
    (one : Growth scope 1 tree between) (two : Growth tree.nodes.size count between after) :
    Growth scope 1 tree after where
  stage := one.stage.trans two.stage
  wellFormed := two.wellFormed
  elsewhere other old apart :=
    (two.elsewhere other (Nat.lt_of_lt_of_le old one.stage.size_le) (Nat.ne_of_lt old)).trans
      (one.elsewhere other old apart)
  more := by
    rw [two.elsewhere scope (Nat.lt_of_lt_of_le known one.stage.size_le) (Nat.ne_of_lt known), one.more]

end ScopeTree

end CoolLang
