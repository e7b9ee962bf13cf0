import CoolLang.Analysis.Annotated
import CoolLang.Proofs.Analysis.Settling
import CoolLang.Proofs.Hierarchy.Heads

/-!
Positions identify declarations. No two features of a class have the same position, and the hierarchy knows the first of
each name and kind by its position. So what asks the hierarchy for a signature by name and position finds that of the
first, and nothing for a later redefinition: typing holds a redefinition against the type that it writes, and inference
goes through its expression only (`Analysis.positions_identify`).
-/

namespace CoolLang

namespace Feature

/-- Whether a feature is the first of its kind and name among the features of a class. -/
def IsFirstIn (features : List Feature) (feature : Feature) : Prop :=
  ∃ front back, features = front ++ feature :: back ∧ ∀ other ∈ front, ¬other.IsNamesake feature

/-- The type that a feature writes: that of an attribute, or of what a method returns. -/
def written : Feature → Ident
  | .attribute decl => decl.type
  | .method decl => decl.result

end Feature

namespace TypeInfo

variable {info : TypeInfo}

/-- The type in the signature of that name, wherever it has been declared. -/
def signatureType? (info : TypeInfo) : Feature → Option TypeId
  | .attribute decl => (info.attribute? decl.name.name).map Attribute.type
  | .method decl => (info.method? decl.name.name).map fun method => method.result.type

instance (info : TypeInfo) : DecidablePred info.ComesFrom
  | .attribute decl => inferInstanceAs (Decidable ((info.attributeAt? decl.name.name decl.name.position).isSome = true))
  | .method decl => inferInstanceAs (Decidable ((info.methodAt? decl.name.name decl.name.position).isSome = true))

theorem Distinct.attributeAt?_of_mem (distinct : info.Distinct) {attr : Attribute} (member : attr ∈ info.attributes) :
    info.attributeAt? attr.name attr.position = some attr := by
  have apart : (info.attributes.map fun attr => (attr.name, attr.position)).Nodup := by
    refine List.Nodup.of_map Prod.fst ?_
    rw [List.map_map]
    exact distinct.attributes
  obtain ⟨_, found, rfl⟩ := Inference.exists_find?_of_forall₂ (List.forall₂_same.mpr fun attr _ => (rfl : attr = attr))
    (fun _ _ same => congrArg (fun attr : Attribute => (attr.name, attr.position)) same.symm) apart member
  exact found

/-- An attribute is known by the name and the position of its declaration. -/
theorem Distinct.attributeAt?_of_frames (distinct : info.Distinct) {hierarchy : Hierarchy} {decl : AttributeDecl}
    {attr : Attribute} (member : attr ∈ info.attributes) (frames : (hierarchy.declaredAttribute decl).Frames attr) :
    info.attributeAt? decl.name.name decl.name.position = some attr := by
  have isName : attr.name = decl.name.name := frames.name
  have isPlace : attr.position = decl.name.position := frames.position
  rw [← isName, ← isPlace]
  exact distinct.attributeAt?_of_mem member

theorem Distinct.methodAt?_of_mem (distinct : info.Distinct) {method : Method} (member : method ∈ info.methods) :
    info.methodAt? method.name method.position = some method := by
  obtain ⟨_, found, rfl⟩ := Inference.exists_find?_of_forall₂
    (List.forall₂_same.mpr fun method _ => (rfl : method = method)) (fun _ _ same => congrArg Method.name same.symm)
    distinct.methods member
  exact Option.filter_eq_some_iff.mpr ⟨found, beq_iff_eq.mpr rfl⟩

/-- A method is known by the name and the position of its declaration. -/
theorem Distinct.methodAt?_of_frames (distinct : info.Distinct) {hierarchy : Hierarchy} {decl : MethodDecl}
    {method : Method} (member : method ∈ info.methods) (frames : (hierarchy.declaredMethod decl).Frames method) :
    info.methodAt? decl.name.name decl.name.position = some method := by
  have isName : method.name = decl.name.name := frames.name
  have isPlace : method.position = decl.name.position := frames.position
  rw [← isName, ← isPlace]
  exact distinct.methodAt?_of_mem member

theorem Distinct.attribute?_of_mem (distinct : info.Distinct) {attr : Attribute} (member : attr ∈ info.attributes) :
    info.attribute? attr.name = some attr := by
  obtain ⟨_, found, rfl⟩ := Inference.exists_find?_of_forall₂ (List.forall₂_same.mpr fun attr _ => (rfl : attr = attr))
    (fun _ _ same => congrArg Attribute.name same.symm) distinct.attributes member
  exact found

end TypeInfo

/-! ### Types of features -/

namespace Surroundings

variable {around : Surroundings} {feature : Feature}

/-- The type that the expression of a feature is held against. -/
def featureType (around : Surroundings) : Feature → TypeId
  | .attribute decl => around.attributeType decl
  | .method decl => around.resultType decl

/-- What is known of a feature is the type in the signature of its name. -/
theorem featureType_of_comesFrom (distinct : (around.hierarchy.info around.current).Distinct)
    (known : (around.hierarchy.info around.current).ComesFrom feature) :
    ∃ type, (around.hierarchy.info around.current).signatureType? feature = some type ∧
      around.featureType feature = around.resolveSelf type := by
  rcases feature with decl | decl
  · obtain ⟨attr, found⟩ := Option.isSome_iff_exists.mp known
    have isNamed := List.find?_some found
    rw [Bool.and_eq_true, beq_iff_eq, beq_iff_eq] at isNamed
    refine ⟨attr.type, ?_, ?_⟩
    · rw [TypeInfo.signatureType?, ← isNamed.1, distinct.attribute?_of_mem (List.mem_of_find?_eq_some found)]
      rfl
    · rw [featureType, attributeType, found]
  · obtain ⟨method, found⟩ := Option.isSome_iff_exists.mp known
    refine ⟨method.result.type, ?_, ?_⟩
    · rw [TypeInfo.signatureType?, (Option.filter_eq_some_iff.mp found).1]
      rfl
    · rw [featureType, resultType, found]

/-- Of what is not known the type is the one that is written. -/
theorem featureType_of_not_comesFrom (unknown : ¬(around.hierarchy.info around.current).ComesFrom feature) :
    around.featureType feature = around.declaredType feature.written := by
  rcases feature with decl | decl
  · rw [featureType, attributeType, Option.not_isSome_iff_eq_none.mp unknown]
    rfl
  · rw [featureType, resultType, Option.not_isSome_iff_eq_none.mp unknown]
    rfl

/-- How typing tells a feature of a class by its position: a signature is found just for the first of its name, which is
held against the type in there; a later one is held against the type that it writes. -/
structure Tells (around : Surroundings) (features : List Feature) (feature : Feature) : Prop where
  known : (around.hierarchy.info around.current).ComesFrom feature ↔ feature.IsFirstIn features
  first : feature.IsFirstIn features →
    ∃ type, (around.hierarchy.info around.current).signatureType? feature = some type ∧
      around.featureType feature = around.resolveSelf type
  later : ¬feature.IsFirstIn features → around.featureType feature = around.declaredType feature.written

end Surroundings

/-- Whether typing over a hierarchy tells all features of a program by their positions. -/
def Program.Identifies (program : Program) (types : ClassTypes) (hierarchy : Hierarchy) : Prop :=
  ∀ class' ∈ program.typed types, ∀ feature ∈ class'.1.features, ∀ name,
    Surroundings.Tells ⟨hierarchy, class'.2, name⟩ class'.1.features feature

/-! ### First features -/

section

variable {features front back : List Feature} (distinct : features.Nodup)
include distinct

/-- Of the features of a kind, those are introduced that are the first of their names. -/
theorem mem_introduced_filterMap {α : Type} {pick : Feature → Option α} {name : α → String} {feature : Feature}
    {decl : α} (split : features = front ++ feature :: back) (picked : pick feature = some decl)
    (injective : ∀ one two decl, pick one = some decl → pick two = some decl → one = two)
    (namesake : ∀ other : Feature,
      other.IsNamesake feature ↔ ∃ decl', pick other = some decl' ∧ name decl' = name decl) :
    decl ∈ introduced name [] (features.filterMap pick) ↔ ∀ other ∈ front, ¬other.IsNamesake feature := by
  have once := distinct.filterMap injective
  rw [split, List.filterMap_append, List.filterMap_cons, picked] at once ⊢
  rw [mem_introduced_iff once, and_iff_right List.not_mem_nil]
  refine ⟨fun apart other member isNamesake => ?_, fun apart decl' member same => ?_⟩
  · obtain ⟨decl', isPicked, same⟩ := (namesake other).mp isNamesake
    exact apart decl' (List.mem_filterMap.mpr ⟨other, member, isPicked⟩) same
  · obtain ⟨other, isFeature, isPicked⟩ := List.mem_filterMap.mp member
    exact apart other isFeature ((namesake other).mpr ⟨decl', isPicked, same⟩)

theorem mem_attributes_iff {attr : AttributeDecl} (split : features = front ++ .attribute attr :: back) :
    attr ∈ introduced AttributeDecl.key [] (features.filterMap Feature.attribute?) ↔
      ∀ other ∈ front, ¬other.IsNamesake (.attribute attr) := by
  refine mem_introduced_filterMap distinct split rfl ?_ ?_
  · rintro (one | one) (two | two) _ ⟨⟩ ⟨⟩
    rfl
  · rintro (other | other)
    · exact ⟨fun same => ⟨other, rfl, same⟩, fun ⟨_, isPicked, same⟩ => Option.some.inj isPicked ▸ same⟩
    · exact ⟨False.elim, fun ⟨decl, isPicked, _⟩ => absurd isPicked.symm (Option.some_ne_none decl)⟩

theorem mem_methods_iff {method : MethodDecl} (split : features = front ++ .method method :: back) :
    method ∈ introduced MethodDecl.key [] (features.filterMap Feature.method?) ↔
      ∀ other ∈ front, ¬other.IsNamesake (.method method) := by
  refine mem_introduced_filterMap distinct split rfl ?_ ?_
  · rintro (one | one) (two | two) _ ⟨⟩ ⟨⟩
    rfl
  · rintro (other | other)
    · exact ⟨False.elim, fun ⟨decl, isPicked, _⟩ => absurd isPicked.symm (Option.some_ne_none decl)⟩
    · exact ⟨fun same => ⟨other, rfl, same⟩, fun ⟨_, isPicked, same⟩ => Option.some.inj isPicked ▸ same⟩

end

namespace Hierarchy

variable {before after : Hierarchy} (frames : before.Frames after)
include frames

/-- Inference leaves the names of features as they are. -/
theorem Frames.names_attributes (type : TypeId) :
    (after.info type).attributes.map Attribute.name = (before.info type).attributes.map Attribute.name := by
  refine Eq.symm ?_
  rw [← List.forall₂_eq_eq_eq, List.forall₂_map_left_iff, List.forall₂_map_right_iff]
  exact (frames.attributes type).imp fun _ _ related => related.name.symm

theorem Frames.names_methods (type : TypeId) :
    (after.info type).methods.map Method.name = (before.info type).methods.map Method.name := by
  refine Eq.symm ?_
  rw [← List.forall₂_eq_eq_eq, List.forall₂_map_left_iff, List.forall₂_map_right_iff]
  exact (frames.methods type).imp fun _ _ related => related.name.symm

theorem Frames.distinct (distinct : before.Distinct) : after.Distinct := fun type =>
  ⟨frames.names_attributes type ▸ (distinct type).attributes, frames.names_methods type ▸ (distinct type).methods⟩

end Hierarchy

theorem ScopeTree.Frames.names_slots {before after : ScopeTree} (frames : before.Frames after) (scope : ScopeId) :
    (after.slots scope).map Variable.name = (before.slots scope).map Variable.name := by
  rw [ScopeTree.slots, ScopeTree.slots, frames.locals, List.map_map, List.map_map]
  exact List.map_congr_left fun id _ => (frames.slots id).name

namespace Analysis

section

variable {program : Program} {hierarchy : Hierarchy} {class' : ClassDecl × TypeId}
  (frames : (checked program).hierarchy.Frames hierarchy)
include frames

/-- Inference leaves a class with what its features declare, but for what it has inferred. -/
theorem frames_class (isTyped : class' ∈ program.typed (checked program).types) :
    List.Forall₂ (fun decl attr => ((checked program).hierarchy.declaredAttribute decl).Frames attr)
        class'.1.attributes (hierarchy.info class'.2).attributes ∧
      List.Forall₂ (fun decl method => ((checked program).hierarchy.declaredMethod decl).Frames method)
        class'.1.methods (hierarchy.info class'.2).methods := by
  obtain ⟨collected, _⟩ := Hierarchy.collect_collected program
  obtain ⟨attributes, methods⟩ : ((checked program).hierarchy.info class'.2).attributes =
        class'.1.attributes.map (checked program).hierarchy.declaredAttribute ∧
      ((checked program).hierarchy.info class'.2).methods =
        class'.1.methods.map (checked program).hierarchy.declaredMethod :=
    collected.build_features (Hierarchy.collect_numbered program) class' isTyped
  have ofAttributes := frames.attributes class'.2
  have ofMethods := frames.methods class'.2
  rw [attributes, List.forall₂_map_left_iff] at ofAttributes
  rw [methods, List.forall₂_map_left_iff] at ofMethods
  exact ⟨ofAttributes, ofMethods⟩

/-- What is known of a type has come from the features of its class that are the first of their names. -/
theorem comesFrom_iff (places : ∀ decl ∈ program.classes, (decl.features.map Feature.position).Nodup)
    (isTyped : class' ∈ program.typed (checked program).types) {front back : List Feature} {feature : Feature}
    (split : class'.1.features = front ++ feature :: back) :
    (hierarchy.info class'.2).ComesFrom feature ↔ ∀ other ∈ front, ¬other.IsNamesake feature := by
  have apart := places _ (Hierarchy.mem_classes_of_mem_typed isTyped)
  have distinct := frames.distinct (checked_prepared program).features class'.2
  have isFeature : feature ∈ class'.1.features := split ▸ List.mem_append_right _ List.mem_cons_self
  obtain ⟨ofAttributes, ofMethods⟩ := frames_class frames isTyped
  rcases feature with decl | decl
  · rw [← mem_attributes_iff (List.Nodup.of_map _ apart) split]
    refine ⟨fun isKnown => ?_, fun member => ?_⟩
    · obtain ⟨attr, found⟩ := Option.isSome_iff_exists.mp isKnown
      obtain ⟨other, isOther, frames⟩ := exists_of_mem_right ofAttributes (List.mem_of_find?_eq_some found)
      have isPlace : attr.position = other.name.position := frames.position
      have isHere := List.find?_some found
      rw [Bool.and_eq_true, beq_iff_eq, beq_iff_eq] at isHere
      have same : Feature.attribute other = .attribute decl := List.inj_on_of_nodup_map apart
        (Hierarchy.mem_features_of_mem_attributes isOther) isFeature (isPlace.symm.trans isHere.2)
      cases same
      exact isOther
    · obtain ⟨attr, isAttribute, frames⟩ := exists_of_mem_right ofAttributes.flip member
      exact Option.isSome_of_mem (distinct.attributeAt?_of_frames isAttribute frames)
  · rw [← mem_methods_iff (List.Nodup.of_map _ apart) split]
    refine ⟨fun isKnown => ?_, fun member => ?_⟩
    · obtain ⟨method, found⟩ := Option.isSome_iff_exists.mp isKnown
      obtain ⟨found, isHere⟩ := Option.filter_eq_some_iff.mp found
      obtain ⟨other, isOther, frames⟩ := exists_of_mem_right ofMethods (List.mem_of_find?_eq_some found)
      have isPlace : method.position = other.name.position := frames.position
      have same : Feature.method other = .method decl := List.inj_on_of_nodup_map apart
        (Hierarchy.mem_features_of_mem_methods isOther) isFeature (isPlace.symm.trans (eq_of_beq isHere))
      cases same
      exact isOther
    · obtain ⟨method, isMethod, frames⟩ := exists_of_mem_right ofMethods.flip member
      exact Option.isSome_of_mem (distinct.methodAt?_of_frames isMethod frames)

theorem comesFrom_iff_isFirstIn (places : ∀ decl ∈ program.classes, (decl.features.map Feature.position).Nodup)
    (isTyped : class' ∈ program.typed (checked program).types) {feature : Feature}
    (member : feature ∈ class'.1.features) :
    (hierarchy.info class'.2).ComesFrom feature ↔ feature.IsFirstIn class'.1.features := by
  constructor
  · intro known
    obtain ⟨front, back, split⟩ := List.append_of_mem member
    exact ⟨front, back, split, (comesFrom_iff frames places isTyped split).mp known⟩
  · rintro ⟨front, back, split, first⟩
    exact (comesFrom_iff frames places isTyped split).mpr first

/-- Whatever inference has changed, typing tells the features of a program by their positions. -/
theorem identifies (places : ∀ decl ∈ program.classes, (decl.features.map Feature.position).Nodup) :
    program.Identifies (checked program).types hierarchy := by
  intro class' isTyped feature member name
  have distinct := frames.distinct (checked_prepared program).features class'.2
  have known := comesFrom_iff_isFirstIn frames places isTyped member
  refine ⟨known, fun first => ?_, fun later => ?_⟩
  · exact Surroundings.featureType_of_comesFrom distinct (known.mpr first)
  · exact Surroundings.featureType_of_not_comesFrom fun isKnown => later (known.mp isKnown)

end

end Analysis

/-! ### Inference of features -/

namespace Inference

variable {start state : InferenceState} {owner : TypeId} {around scope : ScopeId} {feature : Feature}

/-- What the slot of an attribute's name lets its initializer be expected to be. -/
def slotHint (around : ScopeId) (decl : AttributeDecl) (state : InferenceState) : Option TypeId :=
  (state.tree.find? around decl.name.name).bind fun id => (state.tree.variableAt id).type.expected?

/-- Infers a feature for the signature of its name. The value of an initializer flows into the slot that the signature
is recorded from; a method and its signature share what they know of the parameters, the signature says what is expected
of the body, and the value of the body flows into it. -/
def inferFirst (current : TypeId) (around scope : ScopeId) : Feature → Inference Feature
  | .attribute decl => do
      match decl.init with
      | none => return .attribute decl
      | some init =>
          let state ← get
          let (init, type) ← infer current (slotHint around decl state) init
          match state.tree.find? around decl.name.name with
          | some id => observeValue id type
          | none => pure ()
          return .attribute { decl with init := some init }
  | .method decl => do
      let state ← get
      let params := (state.tree.locals scope).drop 1
      let result := ((state.hierarchy.info current).signatureType? (.method decl)).getD .error
      mergeParams current decl.name.name 0 params
      let (body, type) ← infer current (result.resolveIn current).expected? decl.body
      mergeParams current decl.name.name 0 params
      observeResult current decl.name.name type
      return .method { decl with body := body }

/-- Infers the expression of a feature and nothing else. No signature says what is expected of it: that is the slot of its
name for an initializer, and the type that is written for a body. Nor does anything learn from its value. -/
def inferApart (current : TypeId) (around : ScopeId) : Feature → Inference Feature
  | .attribute decl => do
      match decl.init with
      | none => return .attribute decl
      | some init =>
          let (init, _) ← infer current (slotHint around decl (← get)) init
          return .attribute { decl with init := some init }
  | .method decl => do
      let result := ((← get).hierarchy.find? decl.result.name).getD .error
      let (body, _) ← infer current (result.resolveIn current).expected? decl.body
      return .method { decl with body := body }

/-- The state in which a feature that is inferred is looked for by its position: for an attribute, once its initializer
has been inferred. -/
def lookedUpIn (current : TypeId) (around : ScopeId) : Feature → InferenceState → InferenceState
  | .attribute decl, state =>
      match decl.init with
      | none => state
      | some init => (infer current (slotHint around decl state) init state).2
  | .method _, state => state

/-- How inference tells a feature of a class by its position: a signature is found just for the first of its name, which
is inferred for that signature; of a later one the expression is inferred and nothing else. -/
structure Tells (owner : TypeId) (around scope : ScopeId) (features : List Feature) (feature visited : Feature)
    (state : InferenceState) : Prop where
  known : ((lookedUpIn owner around visited state).hierarchy.info owner).ComesFrom visited ↔
    feature.IsFirstIn features
  first : feature.IsFirstIn features →
    inferInside owner around scope visited state = inferFirst owner around scope visited state
  later : ¬feature.IsFirstIn features →
    inferInside owner around scope visited state = inferApart owner around visited state

/-- An initializer is inferred first; then its value flows into the slot of its name if the attribute is known. -/
theorem inferAttribute_of_init {name written : Ident} {init : Expr} :
    inferAttribute owner around ⟨name, written, some init⟩ state =
      let inferred := infer owner (slotHint around ⟨name, written, some init⟩ state) init state
      let known := (inferred.2.hierarchy.info owner).attributeAt? name.name name.position
      (⟨name, written, some inferred.1.1⟩,
        match state.tree.find? around name.name, known with
        | some id, some _ => (observeValue id inferred.1.2 inferred.2).2
        | _, _ => inferred.2) := by
  simp only [inferAttribute, bind, StateT.bind, get, getThe, MonadStateOf.get, StateT.get, pure, slotHint]
  generalize state.tree.find? around name.name = slot
  generalize infer owner (slot.bind fun id => (state.tree.variableAt id).type.expected?) init state = inferred
  obtain ⟨⟨init, type⟩, after⟩ := inferred
  dsimp only
  cases slot <;> cases (after.hierarchy.info owner).attributeAt? name.name name.position <;> rfl

theorem inferInside_attribute {decl : AttributeDecl} :
    inferInside owner around scope (.attribute decl) state =
      (.attribute (inferAttribute owner around decl state).1, (inferAttribute owner around decl state).2) :=
  rfl

theorem inferInside_method {decl : MethodDecl} :
    inferInside owner around scope (.method decl) state =
      (.method (inferMethod owner scope decl state).1, (inferMethod owner scope decl state).2) :=
  rfl

theorem inferInside_of_comesFrom
    (known : ((lookedUpIn owner around feature state).hierarchy.info owner).ComesFrom feature) :
    inferInside owner around scope feature state = inferFirst owner around scope feature state := by
  rcases feature with ⟨name, written, _ | init⟩ | decl
  · rfl
  · obtain ⟨attr, found⟩ := Option.isSome_iff_exists.mp known
    dsimp only [lookedUpIn] at found
    rw [inferInside_attribute, inferAttribute_of_init]
    dsimp only
    rw [found]
    simp only [inferFirst, bind, StateT.bind, get, getThe, MonadStateOf.get, StateT.get, pure]
    cases state.tree.find? around name.name <;> rfl
  · obtain ⟨method, found⟩ : ∃ method,
        (state.hierarchy.info owner).methodAt? decl.name.name decl.name.position = some method :=
      Option.isSome_iff_exists.mp known
    have isMethod := (Option.filter_eq_some_iff.mp found).1
    rw [inferInside_method, inferMethod_of_some found]
    simp only [inferFirst, TypeInfo.signatureType?, bind, StateT.bind, get, getThe, MonadStateOf.get, StateT.get, pure]
    rw [isMethod]
    rfl

theorem inferInside_of_not_comesFrom
    (unknown : ¬((lookedUpIn owner around feature state).hierarchy.info owner).ComesFrom feature) :
    inferInside owner around scope feature state = inferApart owner around feature state := by
  rcases feature with ⟨name, written, _ | init⟩ | decl
  · rfl
  · have absent := Option.not_isSome_iff_eq_none.mp unknown
    dsimp only [lookedUpIn] at absent
    rw [inferInside_attribute, inferAttribute_of_init]
    dsimp only
    rw [absent]
    cases state.tree.find? around name.name <;> rfl
  · have absent : (state.hierarchy.info owner).methodAt? decl.name.name decl.name.position = none :=
      Option.not_isSome_iff_eq_none.mp unknown
    rw [inferInside_method, inferMethod_of_none absent]
    rfl

/-! ### Walks -/

/-- A run that makes visits, and moves the cursor on the way. Each visit is made in a state with some property. -/
inductive Tour (told : Visit → InferenceState → Prop) : List Visit → InferenceState → InferenceState → Prop where
  | done (state : InferenceState) : Tour told [] state state
  | move {visits : List Visit} {state after : InferenceState} (cursor : Cursor) :
      Tour told visits { state with cursor := cursor } after → Tour told visits state after
  | visit {visits : List Visit} {visit : Visit} {state after : InferenceState} :
      told visit state → Tour told visits (visit.after state) after → Tour told (visit :: visits) state after

theorem Tour.append {told : Visit → InferenceState → Prop} {first second : List Visit}
    {before between after : InferenceState} (one : Tour told first before between)
    (two : Tour told second between after) : Tour told (first ++ second) before after := by
  induction one with
  | done => exact two
  | move cursor _ ih => exact .move cursor (ih two)
  | visit isTold _ ih => exact .visit isTold (ih two)

/-- How a visit tells features by their positions. The feature that is visited is one of its class, with the static types
found so far; and each attribute of a class is recorded from the slot of its name. -/
def Visit.Identified (program : Program) (types : ClassTypes) : Visit → InferenceState → Prop
  | .feature owner around scope visited, state =>
      ∃ class' ∈ program.typed types, class'.2 = owner ∧ ∃ feature ∈ class'.1.features,
        visited.untyped = feature.untyped ∧ Tells owner around scope class'.1.features feature visited state
  | .record owner scope, state =>
      (state.hierarchy.info owner).attributes.map Attribute.name <+: (state.tree.slots scope).map Variable.name

theorem infer_frames (distinct : start.hierarchy.Distinct) {expr : Expr} (hint : Option TypeId)
    (guided : Guided (Nest.marksAll expr.nests) state) (frames : start.Frames state) :
    start.Frames (infer owner hint expr state).2 := by
  rw [← List.append_nil (Nest.marksAll _)] at guided
  have hinting : Note.Hinting (fun _ => True) expr.notes := fun _ _ _ _ _ => trivial
  have inferred : Consumes _ _ _ (infer owner hint expr) :=
    (frames_invariant distinct).typed_infer trivial (fun _ _ => trivial) expr hinting
  exact (inferred [] state ⟨guided, frames⟩).1.2

theorem lookedUpIn_frames (distinct : start.hierarchy.Distinct) (guided : Guided (Nest.marksAll feature.nests) state)
    (frames : start.Frames state) : start.Frames (lookedUpIn owner around feature state) := by
  rcases feature with ⟨name, written, _ | init⟩ | decl
  · exact frames
  · exact infer_frames distinct _ guided frames
  · exact frames

theorem comesFrom_untyped {info : TypeInfo} : info.ComesFrom feature.untyped ↔ info.ComesFrom feature := by
  cases feature <;> exact Iff.rfl

end Inference

namespace Analysis

open Inference

variable {program : Program}

section

variable (places : ∀ decl ∈ program.classes, (decl.features.map Feature.position).Nodup)
include places

theorem visit_identified {left : Program} {state : InferenceState} {tree : ScopeTree} {visit : Visit}
    (untyped : left.untyped = program.untyped)
    (member : visit ∈ visits left (checked program).types (checked program).tree) (awaits : visit.Awaits tree state)
    (frames : (checked program).started.2.Frames state) : visit.Identified program (checked program).types state := by
  have distinct : (checked program).started.2.hierarchy.Distinct := (checked_prepared program).features
  obtain ⟨other, isOther, same⟩ := exists_visit_of_untyped untyped member
  rcases visit with ⟨_, _, _, visited⟩ | ⟨_, _⟩
  · rcases other with ⟨owner, around, scope, feature⟩ | ⟨_, _⟩
    · simp only [Visit.untyped, Visit.feature.injEq] at same
      obtain ⟨rfl, rfl, rfl, alike⟩ := same
      obtain ⟨_, decl, isTyped, isFeature⟩ :=
        of_classVisits (checked program).hierarchy (checked program).types isOther
      have looked : (checked program).started.2.Frames (lookedUpIn owner around visited state) :=
        lookedUpIn_frames distinct (Facing.guided awaits) frames
      have known : ((lookedUpIn owner around visited state).hierarchy.info owner).ComesFrom visited ↔
          feature.IsFirstIn decl.features := by
        rw [← comesFrom_untyped, ← alike, comesFrom_untyped]
        exact comesFrom_iff_isFirstIn looked.hierarchy places isTyped isFeature
      refine ⟨(decl, owner), isTyped, rfl, feature, isFeature, alike.symm, known, fun first => ?_, fun later => ?_⟩
      · exact inferInside_of_comesFrom (known.mpr first)
      · exact inferInside_of_not_comesFrom fun isKnown => later (known.mp isKnown)
    · cases same
  · rcases other with ⟨_, _, _, _⟩ | ⟨owner, scope⟩
    · cases same
    · simp only [Visit.untyped, Visit.record.injEq] at same
      obtain ⟨rfl, rfl⟩ := same
      have paired := (visits_paired places _ isOther).map Variable.name
      rw [List.map_map] at paired
      rw [Visit.Identified, frames.hierarchy.names_attributes, frames.tree.names_slots]
      exact paired

/-- One more walk is a tour of its visits, each of which tells features by their positions. -/
theorem walk_tour {left : Program × InferenceState} (untyped : left.1.untyped = program.untyped)
    (outline : left.2.tree.skeleton = Nest.outline (left.1.nests (checked program).types))
    (noDrift : left.2.drift = none) (frames : (checked program).started.2.Frames left.2) :
    Tour (Visit.Identified program (checked program).types) (visits left.1 (checked program).types left.2.tree)
      { left.2 with cursor := .initial, changed := false } (nextWalk (checked program).types left).2 := by
  have distinct : (checked program).started.2.hierarchy.Distinct := (checked_prepared program).features
  let Leads (visits : List Visit) (before after : InferenceState) : Prop := (checked program).started.2.Frames before →
    Tour (Visit.Identified program (checked program).types) visits before after ∧
      (checked program).started.2.Frames after
  have : Composes Leads := by
    refine ⟨fun state kept => ⟨.done state, kept⟩, fun one two kept => ?_⟩
    obtain ⟨tour, between⟩ := one kept
    obtain ⟨more, last⟩ := two between
    exact ⟨tour.append more, last⟩
  have sameVisits : visits left.1 (checked program).types left.2.tree =
      visits left.1 (checked program).types (checked program).tree := visits_congr frames.tree.nodes left.1
  obtain ⟨_, ended, _⟩ := walk_spec outline noDrift
  have walked : Leads (visits left.1 (checked program).types left.2.tree)
      { left.2 with cursor := .initial, changed := false } (walk (checked program).types left.1 left.2).2 := by
    refine walk_visits (fun state cursor kept => ?_) outline noDrift ended fun visit member reached awaits kept => ?_
    · exact ⟨.move cursor (.done _), kept.hierarchy, kept.tree⟩
    · rw [sameVisits] at member
      have identified := visit_identified places untyped member awaits kept
      obtain ⟨other, isOther, same⟩ := exists_visit_of_untyped untyped member
      have paired := visits_paired places other isOther
      rw [← Visit.paired_untyped, same, Visit.paired_untyped] at paired
      exact ⟨.visit identified (.done _), visit_frames distinct paired awaits kept⟩
  exact (walked ⟨frames.hierarchy, frames.tree⟩).1

end

end Analysis

namespace Program

section

open Analysis TokenKind

private def nameAt (column : Nat) (name : String) : Ident :=
  ⟨name, ⟨1, column⟩⟩

private def noteAt (column : Nat) : Note :=
  ⟨⟨1, column⟩, none⟩

private def lexemeAt (column : Nat) (kind : TokenKind) (lexeme : String) : Token :=
  ⟨kind, lexeme, ⟨1, column⟩⟩

def definition : MethodDecl :=
  ⟨nameAt 11 "m", [], nameAt 17 "Int", .integer (noteAt 23) 1⟩

def redefinition : MethodDecl :=
  ⟨nameAt 28 "m", [], nameAt 34 "Bool", .boolean (noteAt 41) true⟩

/-- A class that defines a method twice, with different types. -/
def redefining : Program where
  classes := [⟨nameAt 7 "A", none, [.method definition, .method redefinition], ⟨1, 1⟩⟩]

def redefiningSource : String :=
  "class A \x7b m() : Int \x7b 1 \x7d; m() : Bool \x7b true \x7d; \x7d;"

theorem parse_redefining : parse (Scan.ofSource redefiningSource).tokens = .ok redefining := by
  have one : Reads Phrase.expr _ (.expr (.integer (noteAt 23) 1)) := .single (lexemeAt 23 integer "1") rfl
  have yes : Reads Phrase.expr _ (.expr (.boolean (noteAt 41) true)) := .single (lexemeAt 41 trueWord "true") rfl
  have method {body : Expr} {inner : List Token} (result : String) (column opening closing : Nat)
      (reads : Reads Phrase.expr inner (.expr body)) :
      Reads Phrase.feature _ (.feature (.method ⟨nameAt column "m", [], nameAt (column + 6) result, body⟩)) :=
    .of_built (.lexemes [lexemeAt column objectName "m", lexemeAt (column + 1) leftParen "(",
        lexemeAt (column + 2) rightParen ")", lexemeAt (column + 4) colon ":", lexemeAt (column + 6) typeName result,
        lexemeAt opening leftBrace "\x7b"]
      (.cons reads (.lexemes [lexemeAt closing rightBrace "\x7d", lexemeAt (closing + 1) semicolon ";"] .nil))) rfl
  have features := Reads.features (.cons (method "Int" 11 21 25 one) (.cons (method "Bool" 28 39 46 yes) .nil))
  have only : Reads Phrase.classDef _ (.classDecl ⟨nameAt 7 "A", none, _, ⟨1, 1⟩⟩) :=
    .of_built (.lexemes [lexemeAt 1 classWord "class", lexemeAt 7 typeName "A", lexemeAt 9 leftBrace "\x7b"]
      (.cons features (.lexemes [lexemeAt 49 rightBrace "\x7d", lexemeAt 50 semicolon ";"] .nil))) rfl
  exact parse_of_classes (List.cons_ne_nil _ _) (.cons only .nil) (Token.endOfInput ⟨1, 51⟩) (by decide +kernel) rfl

end

end Program

end CoolLang
