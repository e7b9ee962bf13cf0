import CoolLang.Proofs.Scope.Opening
import CoolLang.Typing.Survey

/-!
The scopes of classes. Before any class is typed, the tree has a scope for each below the root, with the
attributes that the class has or inherits and nothing inside (`ScopeTree.openClasses_opened`).
-/

namespace CoolLang

namespace ScopeTree

variable {tree after : ScopeTree} {scope other : ScopeId} {hierarchy : Hierarchy}

/-! ### Allocating -/

/-- The variables that attributes are declared as. -/
def slotsOf (attributes : List Attribute) : List Variable :=
  attributes.map fun attr => .declared attr.name attr.type

theorem allocateAll_eq (tree : ScopeTree) (attributes : List Attribute) :
    tree.allocateAll attributes =
      (List.range' tree.vars.size attributes.length,
        ⟨tree.nodes, tree.vars ++ (slotsOf attributes).toArray⟩) := by
  induction attributes generalizing tree with
  | nil => simp [allocateAll, slotsOf]
  | cons attr attributes ih =>
      rw [allocateAll, allocate]
      dsimp only
      rw [ih]
      simp [List.range'_succ, slotsOf]

theorem size_allocateAll (tree : ScopeTree) (attributes : List Attribute) :
    (tree.allocateAll attributes).2.vars.size = tree.vars.size + attributes.length := by
  rw [allocateAll_eq]
  simp [slotsOf]

theorem variableAt_allocateAll (tree : ScopeTree) (attributes : List Attribute) (id : VariableId) :
    (tree.allocateAll attributes).2.variableAt id =
      if id < tree.vars.size then tree.variableAt id
      else (slotsOf attributes)[id - tree.vars.size]?.getD default := by
  rw [allocateAll_eq, variableAt, Array.getElem?_append]
  split
  · rfl
  · rw [List.getElem?_toArray]

theorem allocateAll_growth (wellFormed : tree.WellFormed) (attributes : List Attribute) :
    Growth scope 0 tree (tree.allocateAll attributes).2 := by
  have more : tree.vars.size ≤ (tree.allocateAll attributes).2.vars.size := by
    rw [size_allocateAll]
    exact Nat.le_add_right ..
  have nodes : (tree.allocateAll attributes).2.nodes = tree.nodes := by rw [allocateAll_eq]
  have same := congrFun (node_of_nodes nodes)
  refine ⟨⟨Nat.le_of_eq (by rw [nodes]), fun scope _ => by rw [parent?, same, parent?],
    fun scope _ => by rw [locals, same, locals],
    fun scope _ => ⟨[], (List.append_nil _).trans (children_of_node (same scope)).symm⟩, more,
    fun id old => by rw [variableAt_allocateAll, if_pos old]⟩, ⟨fun scope parent isParent => ?_,
    fun scope child member => ?_, fun scope id member => ?_⟩,
    fun scope _ _ => children_of_node (same scope), congrArg List.length (children_of_node (same scope))⟩
  · rw [parent?, same] at isParent
    exact wellFormed.parents scope parent isParent
  · rw [children_of_node (same scope)] at member
    rw [nodes, parent?, same]
    exact wellFormed.children scope child member
  · rw [locals, same] at member
    exact Nat.lt_of_lt_of_le (wellFormed.locals scope id member) more

theorem map_variableAt_allocateAll (tree : ScopeTree) (attributes : List Attribute) :
    (tree.allocateAll attributes).1.map (tree.allocateAll attributes).2.variableAt =
      slotsOf attributes := by
  have isIds : (tree.allocateAll attributes).1 = List.range' tree.vars.size attributes.length := by
    rw [allocateAll_eq]
  rw [isIds]
  apply List.ext_getElem
  · rw [List.length_map, List.length_range', slotsOf, List.length_map]
  · intro place _ known
    rw [List.getElem_map, List.getElem_range', variableAt_allocateAll, Nat.one_mul,
      if_neg (Nat.not_lt.mpr (Nat.le_add_right ..)), Nat.add_sub_cancel_left,
      List.getElem?_eq_getElem known]
    rfl

/-! ### Attaching -/

/-- A tree that differs from another in what is local to its scopes only. -/
structure Relabeled (tree after : ScopeTree) : Prop where
  vars : after.vars = tree.vars
  size : after.nodes.size = tree.nodes.size
  children : ∀ scope, after.children scope = tree.children scope
  parents : ∀ scope, after.parent? scope = tree.parent? scope

theorem Relabeled.wellFormed (relabeled : Relabeled tree after) (wellFormed : tree.WellFormed)
    (locals : ∀ scope, ∀ id ∈ after.locals scope, id < tree.vars.size) : after.WellFormed := by
  refine ⟨fun scope parent isParent => ?_, fun scope child member => ?_, fun scope id member => ?_⟩
  · exact wellFormed.parents scope parent ((relabeled.parents scope).symm.trans isParent)
  · rw [relabeled.children] at member
    rw [relabeled.size, relabeled.parents]
    exact wellFormed.children scope child member
  · rw [relabeled.vars]
    exact locals scope id member

theorem attachAll_spec (ids : List VariableId) (known : scope < tree.nodes.size) :
    Relabeled tree (ids.foldl (fun tree id => tree.attach scope id) tree) ∧
      (ids.foldl (fun tree id => tree.attach scope id) tree).locals scope = tree.locals scope ++ ids ∧
      ∀ other ≠ scope,
        (ids.foldl (fun tree id => tree.attach scope id) tree).locals other = tree.locals other := by
  induction ids generalizing tree with
  | nil => exact ⟨⟨rfl, rfl, fun _ => rfl, fun _ => rfl⟩, (List.append_nil _).symm, fun _ _ => rfl⟩
  | cons id ids ih =>
      have size : (tree.attach scope id).nodes.size = tree.nodes.size := Array.size_modify ..
      obtain ⟨relabeled, locals, elsewhere⟩ := ih (size ▸ known)
      refine ⟨⟨relabeled.vars, relabeled.size.trans size, fun other => ?_, fun other => ?_⟩, ?_,
        fun other apart => ?_⟩
      · exact (relabeled.children other).trans (children_attach ..)
      · exact (relabeled.parents other).trans (parent?_attach ..)
      · refine locals.trans ?_
        rw [locals_attach_self known, List.append_assoc, List.singleton_append]
      · exact (elsewhere other apart).trans (locals_attach_of_ne apart id)

/-- Classes see what they have attached to their scopes, each to its own. -/
theorem attachEach_spec (visible : TypeId → List VariableId) (classes : List ClassScope)
    (apart : (classes.map ClassScope.scope).Nodup)
    (known : ∀ opened ∈ classes, opened.scope < tree.nodes.size) :
    let after := classes.foldl (fun tree opened =>
      (visible opened.type).foldl (fun tree id => tree.attach opened.scope id) tree) tree
    Relabeled tree after ∧
      (∀ opened ∈ classes, after.locals opened.scope = tree.locals opened.scope ++ visible opened.type) ∧
      ∀ other, other ∉ classes.map ClassScope.scope → after.locals other = tree.locals other := by
  induction classes generalizing tree with
  | nil => exact ⟨⟨rfl, rfl, fun _ => rfl, fun _ => rfl⟩, nofun, fun _ _ => rfl⟩
  | cons first classes ih =>
      obtain ⟨isKnown, areKnown⟩ := List.forall_mem_cons.mp known
      obtain ⟨notLater, apart⟩ := List.nodup_cons.mp apart
      obtain ⟨one, locals, elsewhere⟩ := attachAll_spec (visible first.type) isKnown
      obtain ⟨all, locals', elsewhere'⟩ := ih apart fun opened member => one.size ▸ areKnown opened member
      refine ⟨⟨all.vars.trans one.vars, all.size.trans one.size,
        fun scope => (all.children scope).trans (one.children scope),
        fun scope => (all.parents scope).trans (one.parents scope)⟩,
        List.forall_mem_cons.mpr ⟨?_, fun opened member => ?_⟩, fun other isOther => ?_⟩
      · exact (elsewhere' _ notLater).trans locals
      · refine (locals' opened member).trans ?_
        rw [elsewhere _ fun same => notLater (same ▸ List.mem_map_of_mem member)]
      · rw [List.map_cons, List.mem_cons, not_or] at isOther
        exact (elsewhere' other isOther.2).trans (elsewhere other isOther.1)

/-! ### Scopes for classes -/

/-- A class scope with nothing inside, and with the variables of its own attributes. -/
structure Owns (hierarchy : Hierarchy) (tree : ScopeTree) (opened : ClassScope) : Prop where
  known : opened.scope < tree.nodes.size
  parent : tree.parent? opened.scope = some root
  children : tree.children opened.scope = []
  locals : tree.locals opened.scope = []
  own : ∀ id ∈ opened.own, id < tree.vars.size
  slots : opened.own.map tree.variableAt =
    slotsOf (hierarchy.info opened.type).attributes

theorem Owns.of_growth {opened : ClassScope} {count : Nat} (owns : Owns hierarchy tree opened)
    (growth : Growth root count tree after) (inner : opened.scope ≠ root) :
    Owns hierarchy after opened where
  known := Nat.lt_of_lt_of_le owns.known growth.stage.size_le
  parent := (growth.stage.parents _ owns.known).trans owns.parent
  children := (growth.elsewhere _ owns.known inner).trans owns.children
  locals := (growth.stage.locals _ owns.known).trans owns.locals
  own id member := Nat.lt_of_lt_of_le (owns.own id member) growth.stage.vars_le
  slots := by
    rw [← owns.slots]
    exact List.map_congr_left fun id member => growth.stage.vars id (owns.own id member)

/-- The scope of one more class, at the end of the scopes that there are. -/
theorem createClassScope_owns (hierarchy : Hierarchy) (type : TypeId) (wellFormed : tree.WellFormed)
    (isRoot : root < tree.nodes.size) :
    let (own, after) := (tree.createChild root).2.allocateAll (hierarchy.info type).attributes
    Growth root 1 tree after ∧ after.nodes.size = tree.nodes.size + 1 ∧
      after.children root = tree.children root ++ [tree.nodes.size] ∧
      Owns hierarchy after ⟨type, tree.nodes.size, own⟩ ∧
      ∀ info ∈ after.vars, info ∈ tree.vars ∨
        ∃ attr ∈ (hierarchy.info type).attributes, info = .declared attr.name attr.type := by
  obtain ⟨opens, size, children, childless, isParent, _⟩ := openWith_spec [] wellFormed isRoot
  have opens : Growth root 1 tree (tree.createChild root).2 := opens
  have allocates : Growth root 0 _ _ := allocateAll_growth opens.wellFormed (hierarchy.info type).attributes
  have isNew : tree.nodes.size < (tree.createChild root).2.nodes.size := by
    rw [size_createChild]
    exact Nat.lt_succ_self _
  have same := allocateAll_eq (tree.createChild root).2 (hierarchy.info type).attributes
  have nodes := congrArg (fun allocated => ScopeTree.nodes allocated.2) same
  have vars := congrArg (fun allocated => ScopeTree.vars allocated.2) same
  have isSize := (congrArg Array.size nodes).trans size
  refine ⟨opens.trans allocates, isSize, ?_, ⟨isSize ▸ Nat.lt_succ_self _, ?_, ?_, ?_, fun id member => ?_,
    map_variableAt_allocateAll _ _⟩, fun info member => ?_⟩
  · rw [ScopeTree.children_of_nodes nodes]
    exact children
  · exact (allocates.stage.parents _ isNew).trans isParent
  · exact (allocates.elsewhere _ isNew (Nat.ne_of_gt isRoot)).trans childless
  · refine (allocates.stage.locals _ isNew).trans ?_
    rw [ScopeTree.locals, node_createChild_new isRoot]
  · rw [size_allocateAll]
    rw [same] at member
    exact (List.mem_range'_1.mp member).2
  · rw [vars] at member
    refine (Array.mem_append.mp member).imp_right fun new => ?_
    obtain ⟨attr, isAttr, rfl⟩ := List.mem_map.mp (List.mem_toArray.mp new)
    exact ⟨attr, isAttr, rfl⟩

theorem createClassScopes_owns (hierarchy : Hierarchy) (types : List TypeId) (wellFormed : tree.WellFormed)
    (isRoot : root < tree.nodes.size) :
    let (scopes, after) := createClassScopes hierarchy tree types
    Growth root types.length tree after ∧ scopes.map ClassScope.type = types ∧
      scopes.map ClassScope.scope = List.range' tree.nodes.size types.length ∧
      after.children root = tree.children root ++ scopes.map ClassScope.scope ∧
      (∀ opened ∈ scopes, Owns hierarchy after opened) ∧
      ∀ info ∈ after.vars, info ∈ tree.vars ∨ ∃ type ∈ types,
        ∃ attr ∈ (hierarchy.info type).attributes, info = .declared attr.name attr.type := by
  induction types generalizing tree with
  | nil =>
      exact ⟨.refl wellFormed, rfl, rfl, (List.append_nil _).symm, nofun, fun info member => Or.inl member⟩
  | cons type types ih =>
      obtain ⟨opens, isSize, children, first, new⟩ := createClassScope_owns hierarchy type wellFormed isRoot
      obtain ⟨grows, areTypes, areScopes, areChildren, own, known⟩ := ih opens.wellFormed
        (by rw [isSize]; exact Nat.zero_lt_succ _)
      refine ⟨?_, congrArg (type :: ·) areTypes, ?_, ?_, List.forall_mem_cons.mpr ⟨?_, own⟩,
        fun info member => ?_⟩
      · have all := opens.trans grows
        rwa [Nat.add_comm] at all
      · refine Eq.trans ?_ (List.range'_succ ..).symm
        exact congrArg (tree.nodes.size :: ·) (areScopes.trans (by rw [isSize]))
      · refine areChildren.trans ?_
        rw [children, List.append_assoc]
        rfl
      · exact first.of_growth grows (Nat.ne_of_gt isRoot)
      · rcases known info member with old | ⟨other, isOther, attr, isAttr, rfl⟩
        · exact (new info old).imp_right fun ⟨attr, isAttr, isInfo⟩ =>
            ⟨type, List.mem_cons_self, attr, isAttr, isInfo⟩
        · exact Or.inr ⟨other, List.mem_cons_of_mem _ isOther, attr, isAttr, rfl⟩

/-- Whether classes have scopes in which each attribute has the same variable wherever it is in sight. -/
structure SharesAttributes (hierarchy : Hierarchy) (types : ClassTypes) (tree : ScopeTree)
    (own : TypeId → List VariableId) (scopes : List ScopeId) : Prop where
  known : ∀ owner, ∀ id ∈ own owner, id < tree.vars.size
  slots : ∀ owner, (own owner).map tree.variableAt =
    if some owner ∈ types then slotsOf (hierarchy.info owner).attributes else []
  locals : List.Forall₂ (fun scope type => tree.locals scope = (hierarchy.ancestors type).flatMap own) scopes
    (types.filterMap id)

/-- The tree before classes are typed. -/
structure Opened (hierarchy : Hierarchy) (types : ClassTypes) (scopes : List ScopeId) (tree : ScopeTree) :
    Prop where
  wellFormed : tree.WellFormed
  numbered : scopes = List.range' 1 (types.filterMap id).length
  children : tree.children root = scopes
  isRoot : root < tree.nodes.size ∧ tree.parent? root = none ∧ tree.slots root = []
  inner : ∀ scope ∈ scopes,
    scope < tree.nodes.size ∧ tree.parent? scope = some root ∧ tree.children scope = []
  slots : List.Forall₂ (fun scope type => tree.slots scope = Site.attributes hierarchy types type) scopes
    (types.filterMap id)
  vars : ∀ info ∈ tree.vars, ∃ type, some type ∈ types ∧
    ∃ attr ∈ (hierarchy.info type).attributes, info = .declared attr.name attr.type
  shared : ∃ own, SharesAttributes hierarchy types tree own scopes

theorem initial_wellFormed : initial.WellFormed := by
  have node (scope : ScopeId) : initial.parent? scope = none ∧ initial.children scope = [] ∧
      initial.locals scope = [] := by
    obtain _ | scope := scope
    · exact ⟨rfl, rfl, rfl⟩
    · exact ⟨rfl, rfl, rfl⟩
  refine ⟨fun scope parent isParent => ?_, fun scope child member => ?_, fun scope id member => ?_⟩
  · rw [(node scope).1] at isParent
    cases isParent
  · rw [(node scope).2.1] at member
    cases member
  · rw [(node scope).2.2] at member
    cases member

/-- The variables of the attributes of one class. -/
theorem map_ownAttributes {types : ClassTypes} {classes : List ClassScope}
    (areTypes : classes.map ClassScope.type = types.filterMap id)
    (own : ∀ opened ∈ classes, Owns hierarchy tree opened) (owner : TypeId) :
    (((classes.find? fun known => known.type == owner).map ClassScope.own).getD []).map tree.variableAt =
      if some owner ∈ types then slotsOf (hierarchy.info owner).attributes else [] := by
  have isTyped : some owner ∈ types ↔ ∃ opened ∈ classes, opened.type = owner := by
    rw [← List.mem_map, areTypes, List.mem_filterMap]
    exact ⟨fun member => ⟨some owner, member, rfl⟩, fun ⟨_, member, same⟩ => same ▸ member⟩
  cases found : classes.find? fun known => known.type == owner with
  | none =>
      rw [if_neg]
      · rfl
      · intro member
        obtain ⟨opened, isOpened, isOwner⟩ := isTyped.mp member
        exact absurd (beq_iff_eq.mpr isOwner) (List.find?_eq_none.mp found opened isOpened)
  | some opened =>
      have isOwner : opened.type = owner := by simpa using List.find?_some found
      have isOpened := List.mem_of_find?_eq_some found
      rw [if_pos (isTyped.mpr ⟨opened, isOpened, isOwner⟩), ← isOwner]
      exact (own opened isOpened).slots

/-- What a class sees of its own attributes and of those of its ancestors. -/
theorem map_visibleAttributes {types : ClassTypes} {classes : List ClassScope}
    (areTypes : classes.map ClassScope.type = types.filterMap id)
    (own : ∀ opened ∈ classes, Owns hierarchy tree opened) (type : TypeId) :
    (visibleAttributes hierarchy classes type).map tree.variableAt =
      Site.attributes hierarchy types type := by
  rw [visibleAttributes, Site.attributes, List.map_flatMap]
  exact congrArg (List.flatMap · (hierarchy.ancestors type)) (funext (map_ownAttributes areTypes own))

theorem mem_ownAttributes {classes : List ClassScope} {owner : TypeId} {id : VariableId}
    (member : id ∈ ((classes.find? fun known => known.type == owner).map ClassScope.own).getD []) :
    ∃ opened ∈ classes, id ∈ opened.own := by
  cases found : classes.find? fun known => known.type == owner with
  | none =>
      rw [found] at member
      cases member
  | some opened =>
      rw [found] at member
      exact ⟨opened, List.mem_of_find?_eq_some found, member⟩

theorem openClasses_opened (hierarchy : Hierarchy) (types : ClassTypes) :
    Opened hierarchy types (openClasses hierarchy types).1 (openClasses hierarchy types).2 := by
  have isRoot : root < initial.nodes.size := Nat.zero_lt_one
  obtain ⟨grows, areTypes, areScopes, areChildren, own, known⟩ :=
    createClassScopes_owns hierarchy (types.filterMap id) initial_wellFormed isRoot
  unfold openClasses
  generalize createClassScopes hierarchy initial (types.filterMap id) = created at *
  obtain ⟨classes, before⟩ := created
  dsimp only at *
  have apart : (classes.map ClassScope.scope).Nodup := by
    rw [areScopes]
    exact List.nodup_range'
  obtain ⟨relabeled, locals, elsewhere⟩ := attachEach_spec (visibleAttributes hierarchy classes) classes
    apart fun opened member => (own opened member).known
  generalize classes.foldl _ before = after at *
  have variableAt : after.variableAt = before.variableAt := by
    funext id
    rw [ScopeTree.variableAt, relabeled.vars, ScopeTree.variableAt]
  have notRoot : root ∉ classes.map ClassScope.scope := by
    rw [areScopes, List.mem_range'_1]
    exact fun both => Nat.not_succ_le_zero 0 both.1
  have rootLocals : after.locals root = [] := (elsewhere root notRoot).trans (grows.stage.locals root isRoot)
  refine ⟨relabeled.wellFormed grows.wellFormed fun scope id member => ?_, areScopes,
    (relabeled.children root).trans areChildren,
    ⟨relabeled.size ▸ Nat.lt_of_lt_of_le isRoot grows.stage.size_le,
      (relabeled.parents root).trans (grows.stage.parents root isRoot), ?_⟩, fun scope member => ?_, ?_, ?_,
    fun owner => ((classes.find? fun known => known.type == owner).map ClassScope.own).getD [],
    fun owner id member => ?_, variableAt ▸ map_ownAttributes areTypes own, ?_⟩
  · by_cases isClass : scope ∈ classes.map ClassScope.scope
    · obtain ⟨opened, isOpened, rfl⟩ := List.mem_map.mp isClass
      rw [locals opened isOpened, (own opened isOpened).locals, List.nil_append] at member
      obtain ⟨_, _, member⟩ := List.mem_flatMap.mp member
      obtain ⟨owner, isOwner, member⟩ := mem_ownAttributes member
      exact (own owner isOwner).own id member
    · rw [elsewhere scope isClass] at member
      exact grows.wellFormed.locals scope id member
  · rw [ScopeTree.slots, rootLocals]
    rfl
  · obtain ⟨opened, isOpened, rfl⟩ := List.mem_map.mp member
    have owns := own opened isOpened
    exact ⟨relabeled.size ▸ owns.known, (relabeled.parents _).trans owns.parent,
      (relabeled.children _).trans owns.children⟩
  · rw [← areTypes, List.forall₂_map_left_iff, List.forall₂_map_right_iff, List.forall₂_same]
    intro opened isOpened
    rw [ScopeTree.slots, locals opened isOpened, (own opened isOpened).locals, List.nil_append, variableAt]
    exact map_visibleAttributes areTypes own opened.type
  · intro info member
    rw [relabeled.vars] at member
    rcases known info member with nothing | ⟨type, isTyped, attr, isAttr, rfl⟩
    · exact absurd nothing (Array.not_mem_empty info)
    · obtain ⟨_, isTyped, rfl⟩ := List.mem_filterMap.mp isTyped
      exact ⟨type, isTyped, attr, isAttr, rfl⟩
  · obtain ⟨opened, isOpened, member⟩ := mem_ownAttributes member
    exact relabeled.vars ▸ (own opened isOpened).own id member
  · rw [← areTypes, List.forall₂_map_left_iff, List.forall₂_map_right_iff, List.forall₂_same]
    intro opened isOpened
    exact (locals opened isOpened).trans (congrArg (· ++ _) (own opened isOpened).locals)

end ScopeTree

end CoolLang
