import CoolLang.Proofs.Analysis.Annotated
import CoolLang.Proofs.Analysis.Positions
import CoolLang.Proofs.Analysis.WellTyped

/-!
Verifying what has been inferred and checking what has been written out. Once inference has settled, the hierarchy
that it leaves is the one that is built of the annotated program, and so the same static types are found in both, and
the same is reported (`Analysis.verify_annotated`).
-/

namespace CoolLang

/-- What is related by way of the elements of a third list. -/
theorem forall₂_comp {α β γ : Type} {first : α → β → Prop} {second : β → γ → Prop} {items : List α} {others : List β}
    {last : List γ} (one : List.Forall₂ first items others) (two : List.Forall₂ second others last) :
    List.Forall₂ (fun item other => ∃ between ∈ others, first item between ∧ second between other) items last := by
  induction one generalizing last with
  | nil =>
      cases two
      exact .nil
  | cons isFirst _ ih =>
      obtain _ | ⟨isSecond, two⟩ := two
      refine .cons ⟨_, List.mem_cons_self, isFirst, isSecond⟩ ((ih two).imp fun _ _ ⟨between, member, both⟩ => ?_)
      exact ⟨between, List.mem_cons_of_mem _ member, both⟩

section

variable {hierarchy : Hierarchy}

theorem Method.Frames.auto_of_resolve {decl : MethodDecl} {method : Method}
    (frames : (hierarchy.declaredMethod decl).Frames method) (isAuto : (hierarchy.resolve decl.result).1 = .autoType) :
    method.result.auto = true :=
  frames.result.auto.trans (beq_iff_eq.mpr isAuto)

variable (isNamed : hierarchy.name .autoType = "AUTO_TYPE")
include isNamed

/-- What is not left to inference is as it is written. -/
theorem Attribute.Frames.resolve_of_ne {decl : AttributeDecl} {attr : Attribute}
    (frames : (hierarchy.declaredAttribute decl).Frames attr) (other : decl.type.name ≠ "AUTO_TYPE") :
    (hierarchy.resolve decl.type).1 = attr.type :=
  (congrArg Attribute.type (frames.declared (Hierarchy.resolve_ne_autoType isNamed other))).symm

theorem Method.Frames.resolve_of_ne {decl : MethodDecl} {method : Method}
    (frames : (hierarchy.declaredMethod decl).Frames method) (other : decl.result.name ≠ "AUTO_TYPE") :
    (hierarchy.resolve decl.result).1 = method.result.type :=
  (congrArg Variable.type (frames.result.eq_of_ne_autoType (Hierarchy.resolve_ne_autoType isNamed other))).symm

end

namespace Analysis

open Inference

/-! ### Annotated classes -/

section

variable (analysis : Analysis)

/-- A class that has a type, annotated. -/
def annotateClass (scope : ScopeId) (class' : ClassDecl × TypeId) : ClassDecl × TypeId :=
  ({ class'.1 with features := analysis.annotateFeatures class'.2 scope 0 class'.1.features }, class'.2)

theorem map_head_annotateClasses (place : Nat) (decls : List ClassDecl) (types : ClassTypes) :
    (analysis.annotateClasses place decls types).map ClassDecl.head = decls.map ClassDecl.head := by
  induction decls generalizing place types with
  | nil => rcases types with _ | ⟨_ | _, _⟩ <;> rfl
  | cons decl decls ih =>
      rcases types with _ | ⟨_ | type, types⟩
      · rfl
      · exact congrArg (decl.head :: ·) (ih place types)
      · exact congrArg (decl.head :: ·) (ih (place + 1) types)

variable {analysis}

/-- The classes that have a type are annotated in their scopes. -/
theorem forall₂_annotateClasses {related : ScopeId → ClassDecl × TypeId → Prop} {place : Nat} {decls : List ClassDecl}
    {types : ClassTypes} {scopes : List ScopeId} (left : (analysis.tree.children ScopeTree.root).drop place = scopes)
    (all : List.Forall₂ related scopes (Program.typed ⟨decls⟩ types)) :
    List.Forall₂ (fun class' annotated => ∃ scope, related scope class' ∧
        annotated = analysis.annotateClass scope class') (Program.typed ⟨decls⟩ types)
      (Program.typed ⟨analysis.annotateClasses place decls types⟩ types) := by
  induction decls generalizing place types scopes with
  | nil => rcases types with _ | ⟨_ | _, _⟩ <;> exact .nil
  | cons decl decls ih =>
      rcases types with _ | ⟨_ | type, types⟩
      · exact .nil
      · exact ih left all
      · obtain _ | ⟨scope, scopes⟩ := scopes
        · cases all
        obtain ⟨first, later⟩ := List.forall₂_cons.mp all
        obtain ⟨isNext, rest⟩ := next_of_drop left
        have isChild := ScopeTree.child_of_getElem? isNext
        refine .cons ⟨scope, first, ?_⟩ (ih rest later)
        rw [annotateClass, isChild]

/-- The features of a class are annotated in their scopes. -/
theorem forall₂_annotateFeatures (current : TypeId) (scope : ScopeId) (place : Nat) (features : List Feature) :
    List.Forall₂ (fun feature annotated => ∃ index, features[index]? = some feature ∧
        annotated = analysis.annotateFeature current (analysis.tree.child scope (place + index)) feature) features
      (analysis.annotateFeatures current scope place features) := by
  induction features generalizing place with
  | nil => exact .nil
  | cons feature features ih =>
      refine .cons ⟨0, rfl, rfl⟩ ((ih (place + 1)).imp fun _ _ ⟨index, isAt, same⟩ => ⟨index + 1, isAt, ?_⟩)
      rwa [Nat.add_assoc, Nat.add_comm 1] at same

theorem forall₂_attributes_annotateClass (scope : ScopeId) (class' : ClassDecl × TypeId) :
    List.Forall₂ (fun decl annotated => ∃ inner, annotated = analysis.annotateAttribute class'.2 inner decl)
      class'.1.attributes (analysis.annotateClass scope class').1.attributes := by
  refine ClassDecl.forall₂_attributes (fun _ _ ⟨_, same⟩ => same ▸ rfl)
    ((forall₂_annotateFeatures class'.2 scope 0 class'.1.features).imp fun feature _ ⟨_, _, same⟩ => ?_)
  subst same
  rcases feature with decl | decl
  · exact .some ⟨_, rfl⟩
  · exact .none

theorem forall₂_methods_annotateClass (scope : ScopeId) (class' : ClassDecl × TypeId) :
    List.Forall₂ (fun decl annotated => ∃ place, class'.1.features[place]? = some (.method decl) ∧
        annotated = analysis.annotateMethod class'.2 (analysis.tree.child scope place) decl)
      class'.1.methods (analysis.annotateClass scope class').1.methods := by
  refine ClassDecl.forall₂_methods (fun _ _ ⟨_, _, same⟩ => same ▸ rfl)
    ((forall₂_annotateFeatures class'.2 scope 0 class'.1.features).imp fun feature _ ⟨place, isAt, same⟩ => ?_)
  subst same
  rcases feature with decl | decl
  · exact .none
  · exact .some ⟨place, isAt, by rw [Nat.zero_add]⟩

/-- What is written out for a declaration is resolved to its type. -/
theorem Filled.resolve_filledIn (filled : analysis.Filled) {hierarchy : Hierarchy}
    (finds : hierarchy.find? = analysis.hierarchy.find?) {written : Ident} {type : TypeId}
    (inferred : written.name = "AUTO_TYPE" → analysis.hierarchy.IsClass type)
    (explicit : written.name ≠ "AUTO_TYPE" → (analysis.hierarchy.resolve written).1 = type) :
    (hierarchy.resolve (written.filledIn (analysis.hierarchy.name type))).1 = type := by
  by_cases isAuto : written.name = "AUTO_TYPE"
  · refine Hierarchy.resolve_of_find? ?_
    rw [Ident.name_filledIn isAuto, finds]
    exact filled.find?_name type (inferred isAuto)
  · rw [Ident.filledIn_of_ne isAuto, ← explicit isAuto]
    simp only [Hierarchy.resolve, Hierarchy.get, finds]

end

/-! ### Signatures -/

variable {program : Program} {left : Program × InferenceState} {own : TypeId → List VariableId} {scope : ScopeId}
  {class' : ClassDecl × TypeId}

/-- What is known about a program where inference has come to. -/
def reached (program : Program) (left : Program × InferenceState) : Analysis :=
  ⟨left.1, (checked program).types, left.2.hierarchy, left.2.tree⟩

namespace Closed

variable (closed : Closed program left)
include closed

theorem filled : (reached program left).Filled := by
  obtain ⟨collected, _⟩ := Hierarchy.collect_collected program
  have alike := closed.standing.sound.alike
  have isNamed : (checked program).hierarchy.name .autoType = "AUTO_TYPE" :=
    collected.build_name_autoType (Hierarchy.collect_numbered program)
  refine ⟨(congrFun alike.find? _).trans (find?_autoType program), (alike.name _).trans isNamed, fun type isClass => ?_,
    fun id isOpen => ?_⟩
  · change left.2.hierarchy.find? (left.2.hierarchy.name type) = some type
    rw [alike.find?, alike.name]
    exact find?_name (closed.isClass_iff.mp isClass).known (TypeId.ne_error_of_isConcrete isClass.concrete)
  · have isClosed := (closed.closed.tree.variableAt id).closed
    rw [Variable.isOpen, show (left.2.tree.variableAt id).auto = true from isOpen] at isClosed
    have slot := closed.placed (closed.standing.sound.slot (checked_prepared program).rooted.positive id)
    exact slot.isClass (by simpa using isClosed)

/-- An attribute is written out as it has been inferred. -/
theorem matches_attribute (places : ∀ decl ∈ program.classes, (decl.features.map Feature.position).Nodup)
    {hierarchy : Hierarchy} (finds : hierarchy.find? = left.2.hierarchy.find?)
    (isTyped : class' ∈ program.typed (checked program).types) {decl : AttributeDecl}
    (isFeature : .attribute decl ∈ class'.1.features) {attr : Attribute}
    (member : attr ∈ (left.2.hierarchy.info class'.2).attributes)
    (frames : ((checked program).hierarchy.declaredAttribute decl).Frames attr) (inner : ScopeId) :
    Attribute.Matches id attr
      (hierarchy.declaredAttribute ((reached program left).annotateAttribute class'.2 inner decl)) := by
  have isConcrete := (checked_spec program).1 class'.2 (Hierarchy.mem_types_of_mem_typed isTyped)
  have isName : attr.name = decl.name.name := frames.name
  have isPlace : attr.position = decl.name.position := frames.position
  have isAt := (closed.standing.sound.distinct class'.2).attributeAt?_of_frames member frames
  have written : ((reached program left).annotateAttribute class'.2 inner decl).type =
      decl.type.filledIn (left.2.hierarchy.name attr.type) := by
    rw [annotateAttribute, show ((reached program left).hierarchy.info class'.2).attributeAt? _ _ = _ from isAt]
    rfl
  refine ⟨isName.symm, isPlace.symm, ?_⟩
  change (hierarchy.resolve _).1 = attr.type
  rw [written]
  refine closed.filled.resolve_filledIn finds (fun isAuto => ?_) fun explicit => ?_
  · -- an attribute that is left to inference is no longer what it has been declared as
    have resolved : attr.type ≠ .autoType := fun isOpen =>
      (closed.closed.hierarchy class'.2).attributes attr member isOpen ⟨trivial, isConcrete⟩
    refine ⟨?_, ((closed.standing.sound.valid class'.2).attributes attr member).known⟩
    refine (closed.fills class'.2 attr member).resolve_left fun isDeclared => resolved ?_
    rw [declared_of_attribute isTyped (places _ (Hierarchy.mem_classes_of_mem_typed isTyped)) isFeature isDeclared
      frames.position]
    exact (Hierarchy.type_declaredAttribute _ _).trans (resolve_autoType isAuto)
  · have isNamed : (checked program).hierarchy.name .autoType = "AUTO_TYPE" :=
      (closed.standing.sound.alike.name _).symm.trans closed.filled.isNamed
    exact (congrArg Prod.fst (congrFun closed.standing.sound.alike.resolve decl.type)).trans
      (frames.resolve_of_ne isNamed explicit)

/-- A feature declares its variables in its scope. -/
theorem shows_feature (opens : Opens program own scope class') {place : Nat} {feature : Feature}
    (isAt : class'.1.features[place]? = some feature) :
    List.Forall₂ Variable.Frames (Surroundings.featureVariables ⟨(checked program).hierarchy, class'.2, ""⟩ feature)
      (left.2.tree.slots (left.2.tree.child scope place)) := by
  have member := opens.features place feature isAt
  rw [← visits_congr (show left.2.tree.nodes = (checked program).tree.nodes from closed.frames.tree.nodes)] at member
  obtain ⟨isDeclared, _⟩ := of_classVisits (checked program).hierarchy (checked program).types member
  have shown := closed.shows _ isDeclared
  rwa [← closed.child] at shown

end Closed

namespace AtRest

variable (rest : AtRest program left) (places : ∀ decl ∈ program.classes, (decl.features.map Feature.position).Nodup)
  {hierarchy : Hierarchy} (finds : hierarchy.find? = left.2.hierarchy.find?)
include rest places finds

/-- The parameters of a method are written out as its signature has them. -/
theorem matches_params (opens : Opens program own scope class') {place : Nat} {decl : MethodDecl}
    (isAt : class'.1.features[place]? = some (.method decl)) {method : Method}
    (found : (left.2.hierarchy.info class'.2).methodAt? decl.name.name decl.name.position = some method) :
    List.Forall₂ (Variable.Matches id) method.params (hierarchy.declaredMethod
      ((reached program left).annotateMethod class'.2 (left.2.tree.child scope place) decl)).params := by
  have shown := rest.toClosed.shows_feature opens isAt
  rw [ScopeTree.slots, List.forall₂_map_right_iff, Surroundings.featureVariables] at shown
  have names : (checked program).hierarchy.find? = (reached program left).hierarchy.find? :=
    rest.standing.sound.alike.find?.symm
  have written := @Filled.params _ rest.toClosed.filled ⟨(checked program).hierarchy, class'.2, ""⟩
    ⟨hierarchy, class'.2, ""⟩ names finds _ _ _ _ rfl (List.forall₂_map_left_iff.mp (List.forall₂_drop 1 shown))
  have settled := rest.types_params places opens isAt found
  rw [← List.forall₂_eq_eq_eq, List.forall₂_map_left_iff, List.forall₂_map_right_iff, ScopeTree.slots,
    ← List.map_drop] at settled
  rw [hierarchy.params_declaredMethod class'.2]
  refine (forall₂_comp settled.flip written).imp ?_
  rintro param info ⟨_, _, same, isWritten⟩
  obtain ⟨isName, isType⟩ := Prod.ext_iff.mp same
  exact ⟨isWritten.name.trans isName, isWritten.type.trans isType⟩

/-- A method is written out as it has been inferred. -/
theorem matches_method (opens : Opens program own scope class') {place : Nat} {decl : MethodDecl}
    (isAt : class'.1.features[place]? = some (.method decl)) {method : Method}
    (member : method ∈ (left.2.hierarchy.info class'.2).methods)
    (frames : ((checked program).hierarchy.declaredMethod decl).Frames method) :
    Method.Matches id method (hierarchy.declaredMethod
      ((reached program left).annotateMethod class'.2 (left.2.tree.child scope place) decl)) := by
  have isName : method.name = decl.name.name := frames.name
  have isPlace : method.position = decl.name.position := frames.position
  have isResult : method.result.name = decl.name.name := frames.result.name
  have found := (rest.standing.sound.distinct class'.2).methodAt?_of_frames member frames
  have written : ((reached program left).annotateMethod class'.2 (left.2.tree.child scope place) decl).result =
      decl.result.filledIn (left.2.hierarchy.name method.result.type) := by
    rw [annotateMethod, show ((reached program left).hierarchy.info class'.2).methodAt? _ _ = _ from found]
    rfl
  refine ⟨isName.symm, isPlace.symm, rest.matches_params places finds opens isAt found, isResult.symm, ?_⟩
  change (hierarchy.resolve _).1 = method.result.type
  rw [written]
  refine rest.toClosed.filled.resolve_filledIn finds (fun isAuto => ?_) fun explicit => ?_
  · obtain ⟨_, _, _, consistent, placed⟩ := rest.exists_method member
    have isClosed := consistent.result.closed
    rw [Variable.isOpen, frames.auto_of_resolve (resolve_autoType isAuto)] at isClosed
    exact placed.result.isClass (by simpa using isClosed)
  · have isNamed : (checked program).hierarchy.name .autoType = "AUTO_TYPE" :=
      (rest.standing.sound.alike.name _).symm.trans rest.toClosed.filled.isNamed
    exact (congrArg Prod.fst (congrFun rest.standing.sound.alike.resolve decl.result)).trans
      (frames.resolve_of_ne isNamed explicit)

/-- A class is written out with the features that have been inferred for it. -/
theorem matches_class (opens : Opens program own scope class') :
    List.Forall₂ (Attribute.Matches id) (left.2.hierarchy.info class'.2).attributes
        (((reached program left).annotateClass scope class').1.attributes.map hierarchy.declaredAttribute) ∧
      List.Forall₂ (Method.Matches id) (left.2.hierarchy.info class'.2).methods
        (((reached program left).annotateClass scope class').1.methods.map hierarchy.declaredMethod) := by
  obtain ⟨ofAttributes, ofMethods⟩ := frames_class rest.frames.hierarchy opens.isTyped
  rw [List.forall₂_map_right_iff, List.forall₂_map_right_iff]
  constructor
  · have both := forall₂_comp ofAttributes.flip
      (@forall₂_attributes_annotateClass (reached program left) scope class')
    refine ((List.forall₂_and_left _ _).mpr ⟨fun attr member => member, both⟩).imp ?_
    rintro attr _ ⟨member, decl, isDecl, frames, inner, rfl⟩
    exact rest.toClosed.matches_attribute places finds opens.isTyped (Hierarchy.mem_features_of_mem_attributes isDecl)
      member frames inner
  · have both := forall₂_comp ofMethods.flip
      (@forall₂_methods_annotateClass (reached program left) scope class')
    refine ((List.forall₂_and_left _ _).mpr ⟨fun method member => member, both⟩).imp ?_
    rintro method _ ⟨member, decl, _, frames, place, isAt, rfl⟩
    exact rest.matches_method places finds opens isAt member frames

end AtRest

/-! ### Hierarchies -/

/-- Programs whose classes differ in features only have hierarchies that do. -/
theorem checked_of_heads {one two : Program} (same : one.classes.map ClassDecl.head = two.classes.map ClassDecl.head) :
    (checked one).types = (checked two).types ∧ (checked one).hierarchy.Alike (checked two).hierarchy := by
  have collected : Hierarchy.initial.collect one = Hierarchy.initial.collect two :=
    Hierarchy.collectAll_of_heads same .initial
  have built := Hierarchy.build_alike same (Hierarchy.initial.collect one).1 (Hierarchy.initial.collect one).2.1
  refine ⟨congrArg (fun collected => collected.2.1) collected, ?_⟩
  change ((Hierarchy.initial.collect one).1.build one (Hierarchy.initial.collect one).2.1).1.Alike
    ((Hierarchy.initial.collect two).1.build two (Hierarchy.initial.collect two).2.1).1
  rw [← collected]
  exact built

theorem annotated_heads (analysis : Analysis) (program : Program) :
    (analysis.annotated program).classes.map ClassDecl.head = program.classes.map ClassDecl.head :=
  analysis.map_head_annotateClasses 0 program.classes analysis.types

/-- No inference changes a built-in signature. -/
theorem Closed.info_builtin (closed : Closed program left) {type : TypeId} (small : type.index < 8) :
    List.Forall₂ (Attribute.Matches id) (left.2.hierarchy.info type).attributes
        (Hierarchy.initial.defineBuiltins.info type).attributes ∧
      List.Forall₂ (Method.Matches id) (left.2.hierarchy.info type).methods
        (Hierarchy.initial.defineBuiltins.info type).methods := by
  obtain ⟨collected, _⟩ := Hierarchy.collect_collected program
  have all : ∀ type ∈ Hierarchy.initial.ids, (Hierarchy.initial.defineBuiltins.info type).attributes = [] ∧
      ∀ method ∈ (Hierarchy.initial.defineBuiltins.info type).methods,
        (∀ param ∈ method.params, param.type ≠ .autoType) ∧ method.result.type ≠ .autoType := by decide
  obtain ⟨none, settled⟩ := all type (Hierarchy.mem_ids.mpr small)
  have attributes := closed.frames.hierarchy.attributes type
  have methods := closed.frames.hierarchy.methods type
  rw [show (checked program).started.2.hierarchy.info type = Hierarchy.initial.defineBuiltins.info type from
    collected.build_builtin (Hierarchy.collect_numbered program) small] at attributes methods
  rw [none] at attributes ⊢
  rw [List.forall₂_nil_left_iff.mp attributes]
  refine ⟨.nil, ((List.forall₂_and_left _ _).mpr ⟨settled, methods⟩).flip.imp ?_⟩
  rintro _ method ⟨areWritten, frames⟩
  rw [frames.eq_of_settled areWritten]
  exact ⟨rfl, rfl, List.forall₂_same.mpr fun _ _ => ⟨rfl, rfl⟩, rfl, rfl⟩

theorem Closed.annotated_alike (closed : Closed program left) :
    (checked ((reached program left).annotated program)).hierarchy.Alike left.2.hierarchy :=
  (checked_of_heads (annotated_heads _ _)).2.trans closed.standing.sound.alike.symm

/-- The annotated classes that have a type are those of the program, each annotated in the scope opened for it. -/
theorem Closed.annotated_opens (closed : Closed program left)
    (opened : List.Forall₂ (Opens program own) ((checked program).tree.children ScopeTree.root)
      (program.typed (checked program).types)) :
    List.Forall₂ (fun class' annotated => ∃ scope, Opens program own scope class' ∧
        annotated = (reached program left).annotateClass scope class') (program.typed (checked program).types)
      (((reached program left).annotated program).typed (checked program).types) :=
  forall₂_annotateClasses (List.drop_zero.trans (closed.children ScopeTree.root)) opened

/-- The hierarchy that is built of the annotated program has the features that inference leaves. -/
theorem AtRest.info_annotated (rest : AtRest program left)
    (places : ∀ decl ∈ program.classes, (decl.features.map Feature.position).Nodup) (type : TypeId) :
    List.Forall₂ (Attribute.Matches id) (left.2.hierarchy.info type).attributes
        ((checked ((reached program left).annotated program)).hierarchy.info type).attributes ∧
      List.Forall₂ (Method.Matches id) (left.2.hierarchy.info type).methods
        ((checked ((reached program left).annotated program)).hierarchy.info type).methods := by
  have alike := rest.toClosed.annotated_alike
  have sameTypes := (checked_of_heads (annotated_heads (reached program left) program)).1
  obtain ⟨own, _, opened⟩ := checked_opens program
  have annotates := rest.toClosed.annotated_opens opened
  generalize written : (reached program left).annotated program = annotated at alike sameTypes annotates ⊢
  obtain ⟨collected, _⟩ := Hierarchy.collect_collected annotated
  have numbered := Hierarchy.collect_numbered annotated
  by_cases small : type.index < 8
  · rw [show (checked annotated).hierarchy.info type = Hierarchy.initial.defineBuiltins.info type from
      collected.build_builtin numbered small]
    exact rest.toClosed.info_builtin small
  · by_cases known : type.index < (checked annotated).hierarchy.types.size
    · obtain ⟨class'', isTyped, rfl⟩ := Hierarchy.exists_class numbered (Nat.le_of_not_lt small) known
      obtain ⟨attributes, methods⟩ : ((checked annotated).hierarchy.info class''.2).attributes =
            class''.1.attributes.map (checked annotated).hierarchy.declaredAttribute ∧
          ((checked annotated).hierarchy.info class''.2).methods =
            class''.1.methods.map (checked annotated).hierarchy.declaredMethod :=
        collected.build_features numbered class'' isTyped
      rw [attributes, methods]
      rw [show (Hierarchy.initial.collect annotated).2.1 = (checked program).types from sameTypes] at isTyped
      obtain ⟨class', _, scope, opens, rfl⟩ := exists_of_mem_right annotates isTyped
      exact rest.matches_class places alike.find? opens
    · have unknown (hierarchy : Hierarchy) (outside : ¬type.index < hierarchy.types.size) :
          hierarchy.info type = default := by
        rw [Hierarchy.info, Array.getElem?_eq_none (Nat.le_of_not_lt outside)]
        rfl
      rw [unknown _ known, unknown _ (alike.size ▸ known)]
      exact ⟨.nil, .nil⟩

/-- Typing asks the hierarchy that is built of the annotated program for nothing but what inference has left. -/
theorem AtRest.answers (rest : AtRest program left)
    (places : ∀ decl ∈ program.classes, (decl.features.map Feature.position).Nodup) :
    Hierarchy.Answers id left.2.hierarchy (checked ((reached program left).annotated program)).hierarchy where
  injective _ _ same := same
  builtin _ _ := rfl
  find? name := by rw [rest.toClosed.annotated_alike.find?, Option.map_id, id]
  name type := rest.toClosed.annotated_alike.name type
  ancestors type := by rw [rest.toClosed.annotated_alike.ancestors, List.map_id, id]
  attributes type := (rest.info_annotated places type).1
  methods type := (rest.info_annotated places type).2

/-! ### Classes -/

/-- Attributes are in sight wherever they are declared. -/
theorem Closed.attributes_eq (closed : Closed program left) (type : TypeId) :
    Site.attributes left.2.hierarchy (checked program).types type =
      (left.2.hierarchy.ancestors type).flatMap fun owner =>
        (left.2.hierarchy.info owner).attributes.map Attribute.variable := by
  refine List.flatMap_congr fun owner _ => ?_
  split
  · rfl
  · rename_i untyped
    have none : (left.2.hierarchy.info owner).attributes = [] := by
      refine List.eq_nil_iff_forall_not_mem.mpr fun attr member => untyped ?_
      obtain ⟨before, isBefore, _⟩ := exists_of_mem_right (closed.frames.hierarchy.attributes owner) member
      exact mem_types_of_attribute isBefore
    rw [none]
    rfl

section

variable (rest : AtRest program left) (places : ∀ decl ∈ program.classes, (decl.features.map Feature.position).Nodup)
  (slots : ∀ owner, (own owner).map (checked program).tree.variableAt =
    ((checked program).hierarchy.info owner).attributes.map Attribute.variable)
  (opened : List.Forall₂ (Opens program own) ((checked program).tree.children ScopeTree.root)
    (program.typed (checked program).types))
include rest places slots opened

/-- The scope of a class shows what the annotated program declares there. -/
theorem AtRest.matches_scope (opens : Opens program own scope class') :
    List.Forall₂ (Variable.Matches id) (left.2.tree.slots scope)
      (Site.attributes (checked ((reached program left).annotated program)).hierarchy (checked program).types
        class'.2) := by
  have shown : (left.2.tree.slots scope).map (fun info => (info.name, info.type)) =
      (Site.attributes left.2.hierarchy (checked program).types class'.2).map fun info => (info.name, info.type) := by
    rw [ScopeTree.slots, rest.locals, opens.locals, rest.toClosed.attributes_eq, rest.standing.sound.alike.ancestors,
      List.map_map, List.map_flatMap, List.map_flatMap]
    refine List.flatMap_congr fun owner _ => ?_
    rw [List.map_map]
    exact rest.types_own places slots opened owner
  rw [← List.forall₂_eq_eq_eq, List.forall₂_map_left_iff, List.forall₂_map_right_iff] at shown
  have known := Site.matches_attributes (rest.answers places)
    (fun owner => (Iff.rfl : some owner ∈ (checked program).types ↔ _)) class'.2
  refine (forall₂_comp shown known).imp ?_
  rintro info written ⟨_, _, same, isMatch⟩
  obtain ⟨isName, isType⟩ := Prod.ext_iff.mp same
  exact ⟨isMatch.name.trans isName.symm, isMatch.type.trans isType.symm⟩

theorem AtRest.pairs {place : Nat} {type : TypeId}
    (isType : ((checked program).types.filterMap id)[place]? = some type) :
    (reached program left).Pairs ⟨(checked program).hierarchy, type, ""⟩
      (Site.ofClass left.2.hierarchy (some left.2.tree) (checked program).types type place)
      (Site.ofClass (checked ((reached program left).annotated program)).hierarchy none (checked program).types type
        place) := by
  rw [← Hierarchy.map_snd_typed (length_types program), List.getElem?_map] at isType
  obtain ⟨class', isAt, rfl⟩ := Option.map_eq_some_iff.mp isType
  obtain ⟨inTyped, rfl⟩ := List.getElem?_eq_some_iff.mp isAt
  have inScopes : place < ((checked program).tree.children ScopeTree.root).length :=
    Nat.lt_of_lt_of_eq inTyped opened.length_eq.symm
  have opens := opened.get inScopes inTyped
  have isChild : left.2.tree.child ScopeTree.root place = ((checked program).tree.children ScopeTree.root)[place] :=
    (rest.toClosed.child _ _).trans (ScopeTree.child_of_getElem? (List.getElem?_eq_getElem inScopes))
  have root : (reached program left).Pairs ⟨(checked program).hierarchy, _, ""⟩
      ⟨⟨left.2.hierarchy, _, ""⟩, some left.2.tree, ScopeTree.root, []⟩
      ⟨⟨(checked ((reached program left).annotated program)).hierarchy, _, ""⟩, none, ScopeTree.root, []⟩ :=
    ⟨rest.toClosed.filled, rfl, rfl, rest.standing.sound.alike.find?.symm, rfl,
      (rest.toClosed.isClass_of_opens opens).concrete, ⟨⟨rest.answers places, rfl, rfl⟩, .none, rfl, .nil⟩⟩
  refine root.inside place place _ ?_
  rw [show (reached program left).tree.child ScopeTree.root place = _ from isChild]
  exact rest.matches_scope places slots opened opens

end

/-! ### Verifying -/

/-- What a survey over the inferred types comes to, and one of the annotated program over its own hierarchy. -/
theorem AtRest.survey_annotated (rest : AtRest program left)
    (places : ∀ decl ∈ program.classes, (decl.features.map Feature.position).Nodup) :
    Survey.Agrees left.2.hierarchy (checked ((reached program left).annotated program)).hierarchy
      (fun typed typed' => typed' = (reached program left).annotated typed)
      (program.survey (checked program).types left.2.hierarchy (some left.2.tree))
      (((reached program left).annotated program).survey (checked program).types
        (checked ((reached program left).annotated program)).hierarchy none) := by
  obtain ⟨own, slots, opened⟩ := checked_opens program
  have enough : ((checked program).types.filterMap id).length ≤ (left.2.tree.children ScopeTree.root).length := by
    rw [rest.toClosed.children]
    exact Nat.le_of_eq (checked_prepared program).numbered
  have classes := @surveyClasses_agrees (reached program left) (checked program).hierarchy
    (checked ((reached program left).annotated program)).hierarchy (checked program).types 0 program.classes
    (checked program).types _
    (fun place type isType => by
      rw [Nat.zero_add]
      exact rest.pairs places slots opened isType)
    List.drop_zero enough rest.toClosed.shows
  refine classes.bind fun decls _ same => ?_
  subst same
  exact .pure rfl

/-- Verifying what has been inferred is checking the annotated program. Once the last walk of inference has learned
nothing, inference and verification have ended as they should. For the program with the types written out that have been
found for its bindings and parameters, and for the attributes and methods that are the first of their names in a class,
checking finds the same static types that verifying has found, and reports the same in the same order. -/
theorem verify_annotated {source : String} (parsed : Program.parse (Scan.ofSource source).tokens = .ok program)
    {limit : Nat} (stopped : ((checked program).followed limit).2.changed = false) :
    let inferred := ((checked program).infer limit).1
    let verified := inferred.verify.1.1
    let annotated := inferred.annotated program
    (∃ walks, ((checked program).infer limit).2 = .ok walks) ∧ inferred.verify.2 = .ok () ∧
      (∀ class' ∈ program.typed inferred.types, ∀ front feature back, class'.1.features = front ++ feature :: back →
        ((inferred.hierarchy.info class'.2).ComesFrom feature ↔ ∀ other ∈ front, ¬other.IsNamesake feature)) ∧
      (checked annotated).types = inferred.types ∧
      (checked annotated).program = inferred.annotated verified.program ∧
      (checked annotated).program.notes inferred.types = verified.program.notes inferred.types ∧
      (ofProgram annotated).collect.1.build.1.check.2 = inferred.verify.1.2 := by
  intro inferred verified annotated
  have places : ∀ decl ∈ program.classes, (decl.features.map Feature.position).Nodup :=
    fun decl member => (Program.parse_shaped parsed member).2
  have rest := followed_atRest places stopped
  obtain ⟨finished, replayed⟩ := passes_run program limit
  obtain ⟨value, found⟩ := Program.verify_surveyed ((checked program).followed limit).1 (checked program).types
    ((checked program).followed limit).2.hierarchy rest.grounded rest.standing.outline
  obtain ⟨sameValue, sameFound⟩ := Program.survey_of_untyped ((checked program).followed limit).2.hierarchy
    (some ((checked program).followed limit).2.tree) rest.classes
  rw [sameValue] at value
  rw [sameFound] at found
  have sameTypes := (checked_of_heads (annotated_heads inferred program)).1
  obtain ⟨value', found', _⟩ := checked_surveyed annotated
  have agrees := rest.survey_annotated places
  rw [sameTypes] at value' found'
  have sameProgram : (checked annotated).program = inferred.annotated verified.program :=
    value'.trans (agrees.value.trans (congrArg inferred.annotated value.symm))
  refine ⟨finished, replayed, fun class' isTyped front feature back split =>
    comesFrom_iff rest.frames.hierarchy places isTyped split, sameTypes, sameProgram, ?_, ?_⟩
  · rw [sameProgram]
    exact inferred.notes_annotateClasses 0 verified.program.classes inferred.types
  · have reported : (ofProgram annotated).collect.1.build.1.check.2 =
        (annotated.check (checked annotated).types (checked annotated).hierarchy).2.2 := rfl
    rw [reported, sameTypes]
    exact found'.trans (agrees.diagnostics.trans found.symm)

/-- What nothing is inferred for is written out as `Object`. -/
theorem verify_annotated_inferring :
    Program.parse (Scan.ofSource Program.inferringSource).tokens = .ok Program.inferring ∧
    ((checked Program.inferring).followed 32).2.changed = false ∧
    let inferred := ((checked Program.inferring).infer 32).1
    let annotated := inferred.annotated Program.inferring
    ((annotated.classes.flatMap ClassDecl.methods).map fun decl =>
        (decl.params.map fun param => param.type.name, decl.result.name)) =
      [([], "Object"), (["Int", "Int", "Int"], "Int"), (["Int", "Object", "Object"], "Bool")] ∧
    (checked annotated).program = inferred.annotated inferred.verify.1.1.program ∧
    (ofProgram annotated).collect.1.build.1.check.2 = inferred.verify.1.2 := by
  have stopped : ((checked Program.inferring).followed 32).2.changed = false := by decide +kernel
  obtain ⟨_, _, _, _, sameProgram, _, sameReports⟩ := verify_annotated Program.parse_inferring stopped
  exact ⟨Program.parse_inferring, stopped, by decide +kernel, sameProgram, sameReports⟩

end Analysis

end CoolLang
