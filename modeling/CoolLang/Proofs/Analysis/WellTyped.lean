import CoolLang.Proofs.Analysis.Overriding
import CoolLang.Proofs.Analysis.Settling

/-!
Programs that compile without a report. What inference has left of their declarations has classes, the scopes of
their classes show what the hierarchy has for these, and the survey that verifies them finds nothing. So they are
well typed (`Analysis.compiled_wellTyped`).
-/

namespace CoolLang

/-- Whether all classes have types depends on their number only. -/
theorem Program.typed_of_length {decls others : List ClassDecl} {types : ClassTypes}
    (same : others.length = decls.length) (typed : (Program.typed ⟨decls⟩ types).map Prod.fst = decls) :
    (Program.typed ⟨others⟩ types).map Prod.fst = others := by
  induction decls generalizing others types with
  | nil =>
      obtain rfl := List.length_eq_zero_iff.mp same
      rfl
  | cons decl decls ih =>
      obtain _ | ⟨other, others⟩ := others
      · cases same
      rcases types with _ | ⟨_ | type, types⟩
      · cases typed
      · have short : ((Program.typed ⟨decls⟩ types).map Prod.fst).length ≤ decls.length := by
          rw [List.length_map]
          exact (List.length_filterMap_le ..).trans (List.length_zip ▸ Nat.min_le_left ..)
        rw [show (Program.typed ⟨decls⟩ types).map Prod.fst = decl :: decls from typed] at short
        exact absurd short (Nat.not_succ_le_self _)
      · exact congrArg (other :: ·) (ih (Nat.succ.inj same) (List.cons.inj typed).2)

theorem Program.untyped_verify (program : Program) (types : ClassTypes) (hierarchy : Hierarchy) (tree : ScopeTree) :
    (program.verify types hierarchy tree).1.untyped = program.untyped :=
  congrArg Program.mk (Typing.verifyClasses_performs hierarchy program.classes types ⟨tree, some .initial, none, #[]⟩).2

theorem Site.length_surveyClasses (hierarchy : Hierarchy) (tree : Option ScopeTree) (all : ClassTypes) (place : Nat)
    (decls : List ClassDecl) (types : ClassTypes) :
    (Site.surveyClasses hierarchy tree all place decls types).value.length = decls.length := by
  induction decls generalizing types place with
  | nil => rcases types with _ | ⟨_ | _, _⟩ <;> rfl
  | cons decl decls ih =>
      rcases types with _ | ⟨_ | type, types⟩
      · rfl
      · exact congrArg (· + 1) (ih place types)
      · exact congrArg (· + 1) (ih (place + 1) types)

theorem Hierarchy.resolve_of_find? {hierarchy : Hierarchy} {written : Ident} {named : TypeId}
    (names : hierarchy.find? written.name = some named) : (hierarchy.resolve written).1 = named := by
  rw [resolve, get, names]

namespace ScopeTree.Frames

variable {before after : ScopeTree} (frames : before.Frames after)
include frames

theorem children (scope : ScopeId) : after.children scope = before.children scope := by
  rw [ScopeTree.children_of_nodes frames.nodes]

theorem child (scope : ScopeId) (place : Nat) : after.child scope place = before.child scope place := by
  rw [ScopeTree.child, frames.children]
  rfl

end ScopeTree.Frames

namespace Inference

theorem feature_of_place {tree : ScopeTree} {owner : TypeId} {around : ScopeId} (start : Nat) {features : List Feature}
    {place : Nat} {feature : Feature} (isAt : features[place]? = some feature) :
    .feature owner around (tree.child around (start + place)) feature ∈
      featureVisits tree owner around start features := by
  induction features generalizing start place with
  | nil => cases isAt
  | cons first features ih =>
      cases place with
      | zero =>
          obtain rfl := Option.some.inj isAt
          exact List.mem_cons_self
      | succ place =>
          have later := ih (start + 1) isAt
          rw [Nat.add_assoc, Nat.add_comm 1] at later
          exact List.mem_cons_of_mem _ later

/-- Classes are visited in their scopes, and their features in the scopes inside these. -/
theorem visits_of_typed {tree : ScopeTree} {decls : List ClassDecl} {types : ClassTypes} {scopes : List ScopeId}
    {related : ScopeId → ClassDecl × TypeId → Prop}
    (all : List.Forall₂ related scopes (Program.typed ⟨decls⟩ types)) :
    List.Forall₂ (fun scope class' => related scope class' ∧
      .record class'.2 scope ∈ classVisits tree decls types scopes ∧
      ∀ place feature, class'.1.features[place]? = some feature →
        .feature class'.2 scope (tree.child scope place) feature ∈ classVisits tree decls types scopes) scopes
      (Program.typed ⟨decls⟩ types) := by
  induction decls generalizing types scopes with
  | nil =>
      obtain rfl := List.forall₂_nil_right_iff.mp all
      exact .nil
  | cons decl decls ih =>
      rcases types with _ | ⟨_ | type, types⟩
      · obtain rfl := List.forall₂_nil_right_iff.mp all
        exact .nil
      · exact ih all
      · obtain _ | ⟨scope, scopes⟩ := scopes
        · cases all
        obtain ⟨first, later⟩ := List.forall₂_cons.mp all
        refine .cons ⟨first, List.mem_append_right _ List.mem_cons_self, fun place feature isAt => ?_⟩
          ((ih later).imp fun _ _ ⟨isRelated, record, features⟩ =>
            ⟨isRelated, List.mem_append_right _ (List.mem_cons_of_mem _ record), fun place feature isAt =>
              List.mem_append_right _ (List.mem_cons_of_mem _ (features place feature isAt))⟩)
        have visit := @feature_of_place tree type scope 0 _ _ _ isAt
        rw [Nat.zero_add] at visit
        exact List.mem_append_left _ visit

end Inference

/-- Two views of one declaration that have nothing to learn from one another know the same name and type. -/
theorem Variable.Frames.eq_of_merged {hierarchy : Hierarchy} {before info other : Variable} (rooted : hierarchy.Rooted)
    (frames : before.Frames info) (frames' : before.Frames other)
    (isDeclared : before = .declared before.name before.type)
    (consistent : info.Consistent True ∧ other.Consistent True)
    (placed : info.Placed hierarchy ∧ other.Placed hierarchy)
    (merged : info.merge hierarchy.union other = info ∧ other.merge hierarchy.union info = other) :
    (info.name, info.type) = (other.name, other.type) := by
  refine Prod.ext (frames.name.trans frames'.name.symm) ?_
  by_cases isAuto : before.type = .autoType
  · have isOpen : before.auto = true := by
      rw [isDeclared, isAuto]
      rfl
    have inferred {view : Variable} (frames : before.Frames view) (consistent : view.Consistent True) :
        view.auto = true ∧ view.inferred = true := by
      have closed := consistent.closed
      rw [Variable.isOpen, frames.auto, isOpen] at closed
      exact ⟨frames.auto.trans isOpen, by simpa using closed⟩
    have one := inferred frames consistent.1
    have two := inferred frames' consistent.2
    exact Variable.type_eq_of_merged rooted placed.1 placed.2 one.1 two.1 one.2 two.2 merged.1 merged.2
  · exact congrArg Variable.type ((frames.eq_of_ne_autoType isAuto).trans (frames'.eq_of_ne_autoType isAuto).symm)

namespace Analysis

open Inference

variable {program : Program} {left : Program × InferenceState} {own : TypeId → List VariableId} {scope : ScopeId}
  {class' : ClassDecl × TypeId}

/-! ### Scopes of classes -/

/-- A class in the scope that has been opened for it. The variables there are those that classes have as `own`. -/
structure Opens (program : Program) (own : TypeId → List VariableId) (scope : ScopeId)
    (class' : ClassDecl × TypeId) : Prop where
  isTyped : class' ∈ program.typed (checked program).types
  locals : (checked program).tree.locals scope = ((checked program).hierarchy.ancestors class'.2).flatMap own
  record : .record class'.2 scope ∈ visits program (checked program).types (checked program).tree
  features : ∀ place feature, class'.1.features[place]? = some feature →
    .feature class'.2 scope ((checked program).tree.child scope place) feature ∈
      visits program (checked program).types (checked program).tree

theorem length_types (program : Program) : (checked program).types.length = program.classes.length :=
  Hierarchy.length_collect .initial program

theorem checked_opens (program : Program) : ∃ own : TypeId → List VariableId,
    (∀ owner, (own owner).map (checked program).tree.variableAt =
      ((checked program).hierarchy.info owner).attributes.map Attribute.variable) ∧
    List.Forall₂ (Opens program own) ((checked program).tree.children ScopeTree.root)
      (program.typed (checked program).types) := by
  obtain ⟨own, shared⟩ := program.check_shares (checked program).types (checked program).hierarchy
  have types : (program.typed (checked program).types).map Prod.snd = (checked program).types.filterMap id :=
    Hierarchy.map_snd_typed (length_types program)
  have locals := shared.locals
  rw [← types, List.forall₂_map_right_iff] at locals
  refine ⟨own, fun owner => (shared.slots owner).trans ?_, ?_⟩
  · split
    · rfl
    · rename_i untyped
      have none : ((checked program).hierarchy.info owner).attributes = [] :=
        List.eq_nil_iff_forall_not_mem.mpr fun attr member => untyped (mem_types_of_attribute member)
      rw [none]
      rfl
  · have listed := ((List.forall₂_and_left _ _).mpr
      ⟨fun class' (member : class' ∈ program.typed (checked program).types) => member, locals.flip⟩).flip
    exact (visits_of_typed listed).imp fun scope class' ⟨⟨isTyped, locals⟩, record, features⟩ =>
      ⟨isTyped, locals, record, features⟩

/-- Where nothing is reported of declarations, each class has all of its features. -/
theorem checked_introduces (clean : declarationFaults program = [])
    (isTyped : class' ∈ program.typed (checked program).types) {feature : Feature}
    (member : feature ∈ class'.1.features) : (checked program).hierarchy.Introduces class'.2 feature :=
  Hierarchy.build_introduces (Hierarchy.collect_numbered program) (List.append_eq_nil_iff.mp clean).2 class' isTyped
    feature member

/-- All variables are as they are declared, but for the types that have been inferred. -/
theorem shows_of_frames (frames : (checked program).started.2.Frames left.2) : left.2.tree.Shows
    (program.declarations (checked program).types (checked program).hierarchy left.2.tree) := by
  have child : left.2.tree.child = (checked program).tree.child :=
    funext fun scope => funext (frames.tree.child scope)
  have children : left.2.tree.children ScopeTree.root = (checked program).tree.children ScopeTree.root :=
    frames.tree.children _
  rw [Program.declarations, declarationsClasses_congr child, children]
  intro entry member
  rw [← (checked_surveyed program).2.2.2 entry member, ScopeTree.slots, ScopeTree.slots, frames.tree.locals,
    List.forall₂_map_left_iff, List.forall₂_map_right_iff]
  exact List.forall₂_same.mpr fun id _ => frames.tree.slots id

namespace Closed

variable (closed : Closed program left)
include closed

theorem locals (scope : ScopeId) : left.2.tree.locals scope = (checked program).tree.locals scope :=
  closed.frames.tree.locals scope

theorem children (scope : ScopeId) : left.2.tree.children scope = (checked program).tree.children scope :=
  closed.frames.tree.children scope

theorem child (scope : ScopeId) (place : Nat) :
    left.2.tree.child scope place = (checked program).tree.child scope place :=
  closed.frames.tree.child scope place

theorem shows : left.2.tree.Shows
    (program.declarations (checked program).types (checked program).hierarchy left.2.tree) :=
  shows_of_frames closed.frames

/-- The types of attributes are classes. -/
theorem isClass_attribute (clean : declarationFaults program = []) {owner current : TypeId} {attr : Attribute}
    (member : attr ∈ (left.2.hierarchy.info owner).attributes) (isClass : left.2.hierarchy.IsClass current) :
    left.2.hierarchy.IsClass (attr.type.resolveIn current) := by
  obtain ⟨before, isBefore, _⟩ := exists_of_mem_right (closed.frames.hierarchy.attributes owner) member
  have isConcrete := (checked_spec program).1 owner (mem_types_of_attribute isBefore)
  have written : attr.type ≠ .autoType := fun isAuto =>
    (closed.closed.hierarchy owner).attributes attr member isAuto ⟨trivial, isConcrete⟩
  rcases closed.fills owner attr member with isDeclared | concrete
  · have valid := (checked_valid clean owner).attributes attr isDeclared
    rw [← closed.standing.sound.alike.size] at valid
    exact valid.isClass_resolveIn written isClass
  · have isClass : left.2.hierarchy.IsClass attr.type :=
      ⟨concrete, ((closed.standing.sound.valid owner).attributes attr member).known⟩
    rwa [isClass.resolveIn_self]

/-- An attribute is shown with the type that it declares, or with the class that has been inferred for it. -/
theorem reads_attribute (clean : declarationFaults program = []) {owner current : TypeId} {attr : Attribute}
    (member : attr ∈ ((checked program).hierarchy.info owner).attributes) (isClass : left.2.hierarchy.IsClass current)
    {id : VariableId} (frames : attr.variable.Frames (left.2.tree.variableAt id)) :
    left.2.hierarchy.Reads current attr.type ((left.2.tree.variableAt id).type.resolveIn current) := by
  rcases (closed.resolves clean).shown frames with ⟨isAuto, isClass'⟩ | ⟨written, same⟩
  · rw [isClass'.resolveIn_self]
    exact ⟨isClass', absurd isAuto⟩
  · have valid := (checked_valid clean owner).attributes attr member
    rw [← closed.standing.sound.alike.size] at valid
    rw [same]
    exact ⟨valid.isClass_resolveIn written isClass, fun _ => rfl⟩

section

variable (slots : ∀ owner, (own owner).map (checked program).tree.variableAt =
    ((checked program).hierarchy.info owner).attributes.map Attribute.variable)
  (opens : Opens program own scope class')
include slots opens

/-- The scope of a class shows the attributes of the class and its ancestors. -/
theorem frames_scope : List.Forall₂ (fun attr id => attr.variable.Frames (left.2.tree.variableAt id))
    ((left.2.hierarchy.ancestors class'.2).flatMap fun owner => ((checked program).hierarchy.info owner).attributes)
    (left.2.tree.locals scope) := by
  have same : ((left.2.hierarchy.ancestors class'.2).flatMap fun owner =>
      ((checked program).hierarchy.info owner).attributes).map Attribute.variable =
        (left.2.tree.locals scope).map (checked program).tree.variableAt := by
    rw [closed.locals, opens.locals, closed.standing.sound.alike.ancestors, List.map_flatMap,
      List.map_flatMap]
    exact congrArg (List.flatMap · _) (funext fun owner => (slots owner).symm)
  rw [← List.forall₂_eq_eq_eq, List.forall₂_map_left_iff, List.forall₂_map_right_iff] at same
  refine same.imp fun attr id same => ?_
  rw [same]
  exact closed.frames.tree.slots id

omit slots in
theorem isClass_of_opens : left.2.hierarchy.IsClass class'.2 :=
  closed.isClass_iff.mpr
    ((checked_prepared program).areClasses _ (Hierarchy.mem_types_of_mem_typed opens.isTyped))

/-- What is in sight in the scope of a class. -/
theorem sight_scope (clean : declarationFaults program = []) :
    List.Forall₂ (fun (attr : Attribute) entry => entry.1 = attr.name ∧
        left.2.hierarchy.Reads class'.2 attr.type entry.2)
      ((left.2.hierarchy.ancestors class'.2).flatMap fun owner => ((checked program).hierarchy.info owner).attributes)
      ((left.2.tree.slots scope).map fun info => (info.name, info.type.resolveIn class'.2)) := by
  have listed : ∀ attr ∈ (left.2.hierarchy.ancestors class'.2).flatMap fun owner =>
      ((checked program).hierarchy.info owner).attributes,
      ∃ owner, attr ∈ ((checked program).hierarchy.info owner).attributes := by
    intro attr member
    obtain ⟨owner, _, isAttribute⟩ := List.mem_flatMap.mp member
    exact ⟨owner, isAttribute⟩
  rw [ScopeTree.slots, List.map_map, List.forall₂_map_right_iff]
  refine ((List.forall₂_and_left _ _).mpr ⟨listed, closed.frames_scope slots opens⟩).imp fun attr id both => ?_
  obtain ⟨⟨owner, isAttribute⟩, frames⟩ := both
  exact ⟨frames.name, closed.reads_attribute clean isAttribute (closed.isClass_of_opens opens) frames⟩

/-! ### Features -/

omit slots in
/-- An attribute of a class is found where it is declared. -/
theorem exists_attributeAt? (clean : declarationFaults program = []) {decl : AttributeDecl}
    (isFeature : .attribute decl ∈ class'.1.features) : ∃ attr,
      (left.2.hierarchy.info class'.2).attributeAt? decl.name.name decl.name.position = some attr ∧
      ((checked program).hierarchy.declaredAttribute decl).Frames attr := by
  obtain ⟨_, isAttribute⟩ := checked_introduces clean opens.isTyped isFeature
  have names := ((checked_prepared program).features class'.2).attributes
  have distinct : (((checked program).hierarchy.info class'.2).attributes.map fun attr =>
      (attr.name, attr.position)).Nodup := by
    refine List.Nodup.of_map Prod.fst ?_
    rwa [List.map_map]
  exact exists_find?_of_forall₂ (closed.frames.hierarchy.attributes class'.2)
    (fun before after related => show (after.name, after.position) = (before.name, before.position) from
      Prod.ext related.name related.position) distinct isAttribute

omit slots in
/-- A method of a class is found where it is declared. -/
theorem exists_methodAt? (clean : declarationFaults program = []) {decl : MethodDecl}
    (isFeature : .method decl ∈ class'.1.features) : ∃ method,
      (left.2.hierarchy.info class'.2).methodAt? decl.name.name decl.name.position = some method ∧
      ((checked program).hierarchy.declaredMethod decl).Frames method := by
  obtain ⟨_, _, isMethod⟩ := checked_introduces clean opens.isTyped isFeature
  obtain ⟨method, found, frames⟩ := exists_find?_of_forall₂ (closed.frames.hierarchy.methods class'.2)
    (fun _ _ related => related.name) ((checked_prepared program).features class'.2).methods isMethod
  exact ⟨method, Option.filter_eq_some_iff.mpr ⟨found, beq_iff_eq.mpr frames.position⟩, frames⟩

omit slots in
theorem knows_attribute (clean : declarationFaults program = []) {isSettled : Prop} {place : Nat} {decl : AttributeDecl}
    (isFeature : .attribute decl ∈ class'.1.features) :
    Site.Knows ⟨⟨left.2.hierarchy, class'.2, ""⟩, some left.2.tree, scope, left.2.tree.slots scope⟩ left.2.tree
      isSettled place (.attribute decl) := by
  obtain ⟨⟨named, names⟩, _⟩ := checked_introduces clean opens.isTyped isFeature
  obtain ⟨attr, found, frames⟩ := closed.exists_attributeAt? opens clean isFeature
  have isType : ((checked program).hierarchy.declaredAttribute decl).type = named :=
    (Hierarchy.type_declaredAttribute _ _).trans (Hierarchy.resolve_of_find? names)
  refine ⟨attr, found, named, (congrFun closed.standing.sound.alike.find? _).trans names,
    closed.isClass_attribute clean (List.mem_of_find?_eq_some found) (closed.isClass_of_opens opens), fun written => ?_⟩
  rw [frames.declared (isType ▸ written), isType]

omit slots in
/-- The parameters of a method have the types that they name, or the classes that have been inferred for them. -/
theorem takes_params (clean : declarationFaults program = []) {decl : MethodDecl} {method : Method}
    (isFeature : .method decl ∈ class'.1.features)
    (isMethod : method ∈ (left.2.hierarchy.info class'.2).methods)
    (frames : ((checked program).hierarchy.declaredMethod decl).Frames method) :
    left.2.hierarchy.Takes class'.2 decl.params (method.params.map fun param => (param.name, param.type)) := by
  obtain ⟨named, _, _⟩ := checked_introduces clean opens.isTyped isFeature
  have params : List.Forall₂ Variable.Frames (decl.params.map fun param => .declared param.name.name
      (Surroundings.paramType ⟨(checked program).hierarchy, class'.2, ""⟩ param)) method.params := by
    have params := frames.params
    rwa [Hierarchy.params_declaredMethod _ class'.2] at params
  rw [List.forall₂_map_left_iff] at params
  unfold Hierarchy.Takes
  rw [List.forall₂_map_right_iff]
  have areClasses := (closed.resolves clean).params class'.2 method isMethod
  have written := ((List.forall₂_and_left _ _).mpr ⟨named, params⟩).flip
  have both := ((List.forall₂_and_left _ _).mpr ⟨areClasses, written⟩).flip
  refine both.imp fun param info known => ?_
  obtain ⟨isClass, ⟨type, names, notSelf⟩, related⟩ := known
  have isType : Surroundings.paramType ⟨(checked program).hierarchy, class'.2, ""⟩ param = type := by
    unfold Surroundings.paramType
    rw [names]
    exact if_neg notSelf
  rw [isType] at related
  refine ⟨related.name, type, (congrFun closed.standing.sound.alike.find? _).trans names, notSelf, isClass,
    fun written => ?_⟩
  rw [related.eq_of_ne_autoType written]
  exact (if_neg notSelf).symm

omit slots in
theorem knows_method (clean : declarationFaults program = []) {isSettled : Prop} {place : Nat} {decl : MethodDecl}
    (isFeature : .method decl ∈ class'.1.features)
    (settles : isSettled → ∀ method,
      (left.2.hierarchy.info class'.2).methodAt? decl.name.name decl.name.position = some method →
      ((left.2.tree.slots (left.2.tree.child scope place)).drop 1).map (fun info => (info.name, info.type)) =
        method.params.map fun param => (param.name, param.type)) :
    Site.Knows ⟨⟨left.2.hierarchy, class'.2, ""⟩, some left.2.tree, scope, left.2.tree.slots scope⟩ left.2.tree
      isSettled place (.method decl) := by
  obtain ⟨_, ⟨named, names⟩, _⟩ := checked_introduces clean opens.isTyped isFeature
  obtain ⟨method, found, frames⟩ := closed.exists_methodAt? opens clean isFeature
  have isMethod := List.mem_of_find?_eq_some (Option.filter_eq_some_iff.mp found).1
  have isClass := closed.isClass_of_opens opens
  have isType : ((checked program).hierarchy.declaredMethod decl).result.type = named :=
    (Hierarchy.type_result_declaredMethod _ _).trans (Hierarchy.resolve_of_find? names)
  refine ⟨method, found, closed.takes_params opens clean isFeature isMethod frames,
    ⟨named, (congrFun closed.standing.sound.alike.find? _).trans names,
      (closed.resolves clean).results class'.2 method isMethod class'.2 isClass, fun written => ?_⟩,
    fun isSettled => settles isSettled method found⟩
  rw [frames.result.eq_of_ne_autoType (isType ▸ written), isType]

end

end Closed

/-! ### Settled types -/

namespace AtRest

variable (rest : AtRest program left) (places : ∀ decl ∈ program.classes, (decl.features.map Feature.position).Nodup)
include rest places

/-- Once inference has settled, attributes have the types of the variables that stand for them. -/
theorem types_own (slots : ∀ owner, (own owner).map (checked program).tree.variableAt =
      ((checked program).hierarchy.info owner).attributes.map Attribute.variable)
    (opened : List.Forall₂ (Opens program own) ((checked program).tree.children ScopeTree.root)
      (program.typed (checked program).types)) (owner : TypeId) :
    (own owner).map (fun id => ((left.2.tree.variableAt id).name, (left.2.tree.variableAt id).type)) =
      (left.2.hierarchy.info owner).attributes.map fun attr => (attr.name, attr.type) := by
  have many : (own owner).length = (left.2.hierarchy.info owner).attributes.length := by
    have many := congrArg List.length (slots owner)
    rw [List.length_map, List.length_map] at many
    exact many.trans (rest.frames.hierarchy.attributes owner).length_eq
  cases attributes : (left.2.hierarchy.info owner).attributes with
  | nil =>
      rw [attributes] at many
      rw [List.length_eq_zero_iff.mp many]
      rfl
  | cons attr _ =>
      obtain ⟨before, isBefore, _⟩ := exists_of_mem_right (rest.frames.hierarchy.attributes owner)
        (attributes ▸ List.mem_cons_self : attr ∈ (left.2.hierarchy.info owner).attributes)
      have isType := mem_types_of_attribute isBefore
      have isOwner : owner ∈ (program.typed (checked program).types).map Prod.snd := by
        rw [Hierarchy.map_snd_typed (length_types program)]
        exact List.mem_filterMap.mpr ⟨_, isType, rfl⟩
      obtain ⟨class', isTyped, rfl⟩ := List.mem_map.mp isOwner
      obtain ⟨scope, _, opens⟩ := exists_of_mem_right opened isTyped
      obtain ⟨front, back, locals, records⟩ := rest.recorded places opens.record
      obtain ⟨above, ancestors⟩ := Hierarchy.ancestors_head ((checked_prepared program).areClasses _ isType).known
      rw [rest.locals, opens.locals, ancestors, List.flatMap_cons] at locals
      obtain ⟨isFront, _⟩ := List.append_inj locals (many.trans records.length_eq)
      have same : List.Forall₂ Eq
          (front.map fun id => ((left.2.tree.variableAt id).name, (left.2.tree.variableAt id).type))
          ((left.2.hierarchy.info class'.2).attributes.map fun attr => (attr.name, attr.type)) := by
        rw [List.forall₂_map_left_iff, List.forall₂_map_right_iff]
        refine (records.imp fun attr id known => ?_).flip
        obtain ⟨_, _, record⟩ := known
        exact Prod.ext record.name record.type.symm
      rw [isFront, ← attributes]
      exact List.forall₂_eq_eq_eq ▸ same

omit places in
/-- A method is visited in the scope that has been opened for it. -/
theorem exists_visit {owner : TypeId} {around : ScopeId} {decl : MethodDecl}
    (member : .feature owner around scope (.method decl) ∈
      visits program (checked program).types (checked program).tree) :
    ∃ decl' : MethodDecl, decl'.name = decl.name ∧
      .feature owner around scope (.method decl') ∈ visits left.1 (checked program).types left.2.tree := by
  have untyped := List.mem_map_of_mem (f := Visit.untyped) member
  rw [← rest.map_visits] at untyped
  obtain ⟨visit, isVisit, same⟩ := List.mem_map.mp untyped
  rcases visit with ⟨_, _, _, decl' | decl'⟩ | ⟨_, _⟩
  · cases same
  · simp only [Visit.untyped, Visit.feature.injEq, Feature.untyped, Feature.method.injEq,
      MethodDecl.mk.injEq] at same
    obtain ⟨rfl, rfl, rfl, isName, _⟩ := same
    exact ⟨decl', isName, isVisit⟩
  · cases same

/-- Once inference has settled, the parameters of a method are in scope with the types that its signature has. -/
theorem types_params (opens : Opens program own scope class') {place : Nat}
    {decl : MethodDecl} (isAt : class'.1.features[place]? = some (.method decl)) {method : Method}
    (found : (left.2.hierarchy.info class'.2).methodAt? decl.name.name decl.name.position = some method) :
    ((left.2.tree.slots (left.2.tree.child scope place)).drop 1).map (fun info => (info.name, info.type)) =
      method.params.map fun param => (param.name, param.type) := by
  have isChild := rest.child scope place
  have member := opens.features place _ isAt
  obtain ⟨decl', isName, isVisit⟩ := rest.exists_visit member
  obtain ⟨reached, hierarchy, tree, noDrift, quiet⟩ := walk_visits_quiet rest.standing.outline rest.quiet _ isVisit
  have known : (reached.hierarchy.info class'.2).methodAt? decl'.name.name decl'.name.position = some method := by
    rw [hierarchy, isName]
    exact found
  have quiet := inferMethod_quiet known quiet
  obtain ⟨before, isBefore, frames⟩ := rest.frames.hierarchy.exists_of_methodAt? found
  have paired : ((checked program).tree.slots _).drop 1 = before.params := visits_paired places _ member before isBefore
  rw [tree, isName] at quiet
  rw [isChild, ScopeTree.slots, rest.locals, ← List.map_drop, List.map_map]
  rw [ScopeTree.slots, ← List.map_drop] at paired
  rw [rest.locals] at quiet
  generalize ((checked program).tree.locals ((checked program).tree.child scope place)).drop 1 = ids at quiet paired
  have isMethod := (Option.filter_eq_some_iff.mp found).1
  have isMember := List.mem_of_find?_eq_some isMethod
  have isOld := List.mem_of_find?_eq_some (Option.filter_eq_some_iff.mp isBefore).1
  obtain ⟨_, _, _, consistent, placed⟩ := rest.exists_method isMember
  have many : ids.length = method.params.length := by
    rw [← frames.params.length_eq, ← paired, List.length_map]
  refine List.ext_getElem (by rwa [List.length_map, List.length_map]) fun index inIds inParams => ?_
  rw [List.length_map] at inIds inParams
  have inBefore : index < before.params.length := frames.params.length_eq ▸ inParams
  rw [List.getElem_map, List.getElem_map]
  have slot : (checked program).tree.variableAt ids[index] = before.params[index] := by
    simp only [← paired, List.getElem_map]
  have ofParam : before.params[index].Frames method.params[index] := frames.params.get inBefore inParams
  have ofSlot : before.params[index].Frames (left.2.tree.variableAt ids[index]) := slot ▸ rest.frames.tree.slots _
  have isParam : method.params[0 + index]? = some method.params[index] := by
    rw [Nat.zero_add]
    exact List.getElem?_eq_getElem inParams
  have merged := mergeParams_quiet noDrift quiet (hierarchy ▸ isMethod) (List.getElem?_eq_getElem inIds) isParam
  rw [hierarchy, tree] at merged
  exact ofSlot.eq_of_merged rest.rooted ofParam
    (checked_declared isOld _ (List.mem_cons_of_mem _ (List.getElem_mem inBefore)))
    ⟨rest.closed.tree.variableAt _, consistent.params _ (List.getElem_mem inParams)⟩
    ⟨rest.toClosed.placed (rest.standing.sound.slot (checked_prepared program).rooted.positive _),
      placed.params _ (List.getElem_mem inParams)⟩ merged

end AtRest

/-! ### Verification -/

/-- What is known of a class whose declarations nothing is reported of. -/
theorem Closed.known (closed : Closed program left) (clean : declarationFaults program = [])
    (slots : ∀ owner, (own owner).map (checked program).tree.variableAt =
      ((checked program).hierarchy.info owner).attributes.map Attribute.variable)
    (opens : Opens program own scope class') (complete : ∀ feature ∈ class'.1.features, feature.Complete)
    {isSettled : Prop}
    (types_own : isSettled → ∀ owner,
      (own owner).map (fun id => ((left.2.tree.variableAt id).name, (left.2.tree.variableAt id).type)) =
        (left.2.hierarchy.info owner).attributes.map fun attr => (attr.name, attr.type))
    (types_params : isSettled → ∀ place decl, class'.1.features[place]? = some (.method decl) → ∀ method,
      (left.2.hierarchy.info class'.2).methodAt? decl.name.name decl.name.position = some method →
      ((left.2.tree.slots (left.2.tree.child scope place)).drop 1).map (fun info => (info.name, info.type)) =
        method.params.map fun param => (param.name, param.type)) :
    Site.ClassKnown left.2.hierarchy (checked program).hierarchy left.2.tree isSettled scope class' := by
  have sight := closed.sight_scope slots opens clean
  have isClass := closed.isClass_of_opens opens
  refine ⟨⟨rfl, closed.standing.sound.alike.symm.find?, rfl, closed.resolves clean, isClass, fun entry member => ?_⟩,
    ⟨sight, fun isSettled => ?_⟩, complete, fun place feature isAt => ?_⟩
  · obtain ⟨attr, _, _, reads⟩ := exists_of_mem_right sight member
    exact reads.isClass
  · change (left.2.tree.slots scope).map (fun info => (info.name, info.type.resolveIn class'.2)) = _
    have same (owner : TypeId) := congrArg (List.map fun entry => (entry.1, entry.2.resolveIn class'.2))
      (types_own isSettled owner)
    simp only [List.map_map] at same
    rw [ScopeTree.slots, closed.locals, opens.locals, closed.standing.sound.alike.ancestors, List.map_map,
      List.map_flatMap]
    exact congrArg (List.flatMap · _) (funext same)
  · have isFeature := List.mem_of_getElem? isAt
    rcases feature with decl | decl
    · exact closed.knows_attribute opens clean isFeature
    · exact closed.knows_method opens clean isFeature fun isSettled => types_params isSettled place decl isAt

/-- A program of whose declarations nothing is reported is well typed after inference, if nothing is reported of it
then. -/
theorem survey_wellTyped (shaped : ∀ decl ∈ program.classes, (∀ feature ∈ decl.features, feature.Complete) ∧
      (decl.features.map Feature.position).Nodup) (closed : Closed program left)
    (clean : declarationFaults program = [])
    {isSettled : Prop} (settles : isSettled → AtRest program left) :
    (program.survey (checked program).types left.2.hierarchy (some left.2.tree)).Assures left.2.hierarchy
      fun program' => program'.WellTyped isSettled left.2.hierarchy (checked program).hierarchy (checked program).types := by
  have places : ∀ decl ∈ program.classes, (decl.features.map Feature.position).Nodup :=
    fun decl member => (shaped decl member).2
  obtain ⟨own, slots, opened⟩ := checked_opens program
  have known := opened.imp fun scope class' opens => closed.known clean slots opens
    (shaped _ (Hierarchy.mem_classes_of_mem_typed opens.isTyped)).1
    (fun isSettled owner => (settles isSettled).types_own places slots opened owner)
    fun isSettled place decl isAt method found => (settles isSettled).types_params places opens isAt found
  have shows := closed.shows
  rw [Program.declarations, closed.children] at shows
  have typed : (program.typed (checked program).types).map Prod.fst = program.classes :=
    Hierarchy.collectAll_typed (List.append_eq_nil_iff.mp clean).1
  intro found
  rw [Program.survey, Survey.diagnostics_map] at found
  refine ⟨Program.typed_of_length (Site.length_surveyClasses ..) typed, ?_⟩
  exact Site.surveyClasses_wellTyped ((closed.children _).symm.trans List.drop_zero.symm) known shows found

end Analysis

/-- All expressions of a well typed program have classes as their static types. -/
theorem Program.WellTyped.notes {program : Program} {isSettled : Prop} {hierarchy declared : Hierarchy}
    {types : ClassTypes} (wellTyped : program.WellTyped isSettled hierarchy declared types)
    (rooted : hierarchy.Rooted) :
    ∀ note ∈ program.notes types, note.OfClass hierarchy := by
  intro note member
  obtain ⟨class', isTyped, member⟩ := List.mem_flatMap.mp member
  obtain ⟨feature, isFeature, member⟩ := List.mem_flatMap.mp member
  obtain ⟨sight, _, ofFeatures⟩ := wellTyped.features class' isTyped
  have ofFeature := ofFeatures feature isFeature
  rcases feature with decl | decl
  · obtain ⟨_, _, _, _, ofInit⟩ := ofFeature
    exact ofInit.notes rooted decl.init note member
  · obtain ⟨_, _, _, _, _, _, _, _, _, ofBody, _⟩ := ofFeature
    exact (ofBody.notes rooted).1 note member

namespace Analysis

end Analysis

end CoolLang
