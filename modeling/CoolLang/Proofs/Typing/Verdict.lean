import CoolLang.Proofs.Typing.Soundness

/-!
Programs with which a survey finds nothing wrong. If the scopes of its classes show what the hierarchy has for them,
then such a program is well typed (`Site.surveyClasses_wellTyped`).
-/

namespace CoolLang

theorem Hierarchy.Takes.areClasses {hierarchy : Hierarchy} {current : TypeId} {params : List Param} {sight : Sight}
    (takes : hierarchy.Takes current params sight) : ∀ entry ∈ sight, hierarchy.IsClass entry.2 := by
  induction takes with
  | nil => exact nofun
  | cons first _ ih =>
      obtain ⟨_, _, _, _, reads⟩ := first
      exact List.forall_mem_cons.mpr ⟨reads.isClass, ih⟩

namespace Site

variable {site : Site} {around : Surroundings} {tree : ScopeTree} {isSettled : Prop}

/-! ### Features -/

/-- Whether a feature has a signature with the types that it declares, and whether these are what its parameters are
in scope with once inference has settled. -/
def Knows (site : Site) (tree : ScopeTree) (isSettled : Prop) (place : Nat) : Feature → Prop
  | .attribute decl => ∃ attr,
      (site.hierarchy.info site.current).attributeAt? decl.name.name decl.name.position = some attr ∧
      ∃ declared, site.hierarchy.find? decl.type.name = some declared ∧
        site.hierarchy.Reads site.current declared (attr.type.resolveIn site.current)
  | .method decl => ∃ method,
      (site.hierarchy.info site.current).methodAt? decl.name.name decl.name.position = some method ∧
      site.hierarchy.Takes site.current decl.params (method.params.map fun param => (param.name, param.type)) ∧
      (∃ declared, site.hierarchy.find? decl.result.name = some declared ∧
        site.hierarchy.Reads site.current declared (method.result.type.resolveIn site.current)) ∧
      (isSettled → ((tree.slots (tree.child site.scope place)).drop 1).map (fun info => (info.name, info.type)) =
        method.params.map fun param => (param.name, param.type))

theorem Settled.shows_self (settled : site.Settled around tree) {scope : ScopeId} {params : List Variable}
    (shown : List.Forall₂ Variable.Frames (.declared "self" around.current :: params) (tree.slots scope)) :
    ∃ infos, tree.slots scope = .declared "self" site.current :: infos ∧
      List.Forall₂ Variable.Frames params infos := by
  generalize tree.slots scope = slots at shown
  cases shown with
  | cons first rest =>
      have isClass := settled.isClass
      rw [settled.current] at first
      exact ⟨_, congrArg (· :: _) (first.eq_of_ne_autoType (TypeId.ne_autoType_of_isConcrete isClass.concrete)), rest⟩

/-- Parameters are in scope with the types that they name, or with those that have been inferred for them. -/
theorem Settled.takes (settled : site.Settled around tree) {scope : ScopeId} {params : List Param}
    {types : Sight} (declared : site.hierarchy.Takes site.current params types) {infos : List Variable}
    (members : ∀ info ∈ infos, info ∈ tree.slots scope)
    (shown : List.Forall₂ Variable.Frames
      (params.map fun param => .declared param.name.name (around.paramType param)) infos) :
    site.hierarchy.Takes site.current params (infos.map fun info => (info.name, info.type)) := by
  unfold Hierarchy.Takes at declared ⊢
  rw [List.forall₂_map_left_iff] at shown
  rw [List.forall₂_map_right_iff]
  induction declared generalizing infos with
  | nil =>
      cases shown
      exact .nil
  | @cons param _ params _ first _ ih =>
      cases shown with
      | cons frames shown =>
          obtain ⟨isMember, members⟩ := List.forall_mem_cons.mp members
          obtain ⟨_, named, names, notSelf, _⟩ := first
          have isType : around.paramType param = named := by
            unfold Surroundings.paramType
            rw [settled.names, names]
            exact if_neg notSelf
          have resolved : named.resolveIn site.current = named := if_neg notSelf
          rw [isType, ← resolved] at frames
          exact .cons ⟨frames.name, named, names, notSelf,
            settled.reads isMember frames (settled.isClass.resolveIn names)⟩ (ih members shown)

/-- In the scope of a feature there are its variables, which have classes, and what is in sight around it. -/
theorem Settled.insideFeature (settled : site.Settled around tree) {place : Nat} {infos : List Variable}
    (slots : tree.slots (tree.child site.scope place) = .declared "self" site.current :: infos)
    (areClasses : ∀ info ∈ infos, site.hierarchy.IsClass info.type) (written : List Variable) (name : String) :
    ({ site.inside place written with feature := name } : Site).Settled { around with feature := name } tree ∧
      (site.inside place written).sight =
        ("self", site.current) :: (infos.map (fun info => (info.name, info.type)) ++ site.sight) := by
  have inner := settled.inside place written (slots ▸ List.forall_mem_cons.mpr ⟨settled.isClass, areClasses⟩)
  refine ⟨{ inner with }, ?_⟩
  have isSelf : site.resolveSelf site.current = site.current := settled.isClass.resolveIn_self _
  have same : infos.map (fun info => (info.name, site.resolveSelf info.type)) =
      infos.map fun info => (info.name, info.type) :=
    List.map_congr_left fun info member => congrArg (info.name, ·) ((areClasses info member).resolveIn_self _)
  rw [settled.sight_inside, slots, List.map_cons, same]
  exact congrArg (fun type => ("self", type) :: (infos.map _ ++ site.sight)) isSelf

theorem assures_attribute (settled : site.Settled around tree) {decl : AttributeDecl} {type : TypeId}
    (isType : site.attributeType decl = type) (isClass : site.hierarchy.IsClass type)
    (complete : Expr.CompleteOption decl.init)
    (shows : tree.Shows (around.declarationsOption tree site.scope 0 decl.init)) :
    (site.surveyAttribute decl).Assures site.hierarchy fun result => result.name = decl.name ∧
      result.type = decl.type ∧ HasInit site.hierarchy site.current site.sight result.init type := by
  obtain ⟨name, written, _ | init⟩ := decl
  · exact .pure ⟨rfl, rfl, .none⟩
  · rw [Expr.CompleteOption] at complete
    rw [Surroundings.declarationsOption] at shows
    exact (survey_hasType site settled 0 init complete shows).bind fun _ typed =>
      Survey.Assures.flow.bind fun _ conforms => .pure ⟨rfl, rfl, .some typed
        ((settled.rooted.conforms_iff (typed.notes settled.rooted).2 isClass).mp (isType ▸ conforms))⟩

theorem assures_method (settled : site.Settled around tree) {decl : MethodDecl} {type : TypeId}
    (isType : site.resultType decl = type) (isClass : site.hierarchy.IsClass type) (complete : decl.body.Complete)
    (shows : tree.Shows (around.declarations tree site.scope 0 decl.body)) :
    (site.surveyMethod decl).Assures site.hierarchy fun result => result.name = decl.name ∧
      result.params = decl.params ∧ result.result = decl.result ∧
        ∃ known, HasType site.hierarchy site.current site.sight result.body known ∧
          site.hierarchy.Conforms known type :=
  (survey_hasType site settled 0 decl.body complete shows).bind fun _ typed =>
    Survey.Assures.flow.bind fun _ conforms => .pure ⟨rfl, rfl, rfl, _, typed,
      (settled.rooted.conforms_iff (typed.notes settled.rooted).2 isClass).mp (isType ▸ conforms)⟩

theorem surveyFeature_wellTyped (settled : site.Settled around tree) (place : Nat) (feature : Feature)
    (complete : feature.Complete) (knows : site.Knows tree isSettled place feature)
    (shows : tree.Shows (around.declarationsFeature tree site.scope place feature)) :
    (site.surveyFeature place feature).Assures site.hierarchy fun feature =>
      feature.WellTyped site.hierarchy site.current isSettled site.sight := by
  obtain ⟨shown, shows⟩ := shows.cons
  rw [← scope_inside settled.isTree (site.featureVariables feature)] at shows
  rcases feature with decl | decl
  · obtain ⟨attr, found, named, names, reads⟩ := knows
    obtain ⟨infos, slots, params⟩ := settled.shows_self shown
    obtain rfl := List.forall₂_nil_left_iff.mp params
    obtain ⟨inner, sight⟩ := settled.insideFeature slots
      (fun _ member => absurd member List.not_mem_nil) (site.featureVariables (.attribute decl)) decl.name.name
    have isType : site.attributeType decl = attr.type.resolveIn site.current := by
      rw [Surroundings.attributeType, found]
      rfl
    have isHere := List.find?_some found
    rw [Bool.and_eq_true, beq_iff_eq] at isHere
    refine (assures_attribute inner isType reads.isClass complete shows).bind
      fun result ofResult => .pure ?_
    obtain ⟨isName, isWritten, ofInit⟩ := ofResult
    refine ⟨attr, List.mem_of_find?_eq_some found, isName ▸ isHere.1, isWritten ▸ ⟨named, names, reads⟩, ?_⟩
    exact sight ▸ ofInit
  · obtain ⟨method, found, takes, ⟨named, names, reads⟩, settles⟩ := knows
    obtain ⟨infos, slots, params⟩ := settled.shows_self shown
    have ofParams := settled.takes takes (fun info member => slots ▸ List.mem_cons_of_mem _ member) params
    obtain ⟨inner, sight⟩ := settled.insideFeature slots
      (fun info member => ofParams.areClasses _ (List.mem_map_of_mem member))
      (site.featureVariables (.method decl)) decl.name.name
    have isType : site.resultType decl = method.result.type.resolveIn site.current := by
      rw [Surroundings.resultType, found]
      rfl
    have isMethod := (Option.filter_eq_some_iff.mp found).1
    refine (assures_method inner isType reads.isClass complete shows).bind
      fun result ofResult => .pure ?_
    obtain ⟨isName, areParams, isWritten, known, ofBody, conforms⟩ := ofResult
    refine ⟨method, List.mem_of_find?_eq_some isMethod, isName ▸ TypeInfo.method?_name isMethod, areParams ▸ takes,
      isWritten ▸ ⟨named, names, reads⟩, _, known, areParams ▸ ofParams, fun isSettled => ?_, sight ▸ ofBody,
      conforms⟩
    have same := settles isSettled
    rwa [slots] at same

/-! ### Classes -/

theorem surveyFeatures_wellTyped (settled : site.Settled around tree) (place : Nat) (features : List Feature)
    (complete : ∀ feature ∈ features, feature.Complete)
    (knows : ∀ index feature, features[index]? = some feature → site.Knows tree isSettled (place + index) feature)
    (shows : tree.Shows (around.declarationsFeatures tree site.scope place features)) :
    (site.surveyFeatures place features).Assures site.hierarchy fun features =>
      ∀ feature ∈ features, feature.WellTyped site.hierarchy site.current isSettled site.sight := by
  induction features generalizing place with
  | nil => exact .pure nofun
  | cons feature features ih =>
      obtain ⟨first, later⟩ := List.forall_mem_cons.mp complete
      have rest := ih (place + 1) later
        (fun index feature isAt => by
          have knows := knows (index + 1) feature isAt
          rwa [Nat.add_comm index, ← Nat.add_assoc] at knows) shows.append.2
      exact (surveyFeature_wellTyped settled place feature first (knows 0 feature rfl) shows.append.1).bind
        fun _ ofFeature => rest.bind fun _ ofFeatures => .pure (List.forall_mem_cons.mpr ⟨ofFeature, ofFeatures⟩)

/-- What is known of a class that has a scope in a tree. -/
structure ClassKnown (hierarchy declared : Hierarchy) (tree : ScopeTree) (isSettled : Prop) (scope : ScopeId)
    (class' : ClassDecl × TypeId) : Prop where
  settled : Settled ⟨⟨hierarchy, class'.2, ""⟩, some tree, scope, tree.slots scope⟩ ⟨declared, class'.2, ""⟩ tree
  shows : hierarchy.Shows class'.2 declared isSettled
    (sight ⟨⟨hierarchy, class'.2, ""⟩, some tree, scope, tree.slots scope⟩)
  complete : ∀ feature ∈ class'.1.features, feature.Complete
  knows : ∀ place feature, class'.1.features[place]? = some feature →
    Knows ⟨⟨hierarchy, class'.2, ""⟩, some tree, scope, tree.slots scope⟩ tree isSettled place feature

theorem surveyClass_wellTyped {hierarchy declared : Hierarchy} {scope : ScopeId} {decl : ClassDecl} {type : TypeId}
    (known : ClassKnown hierarchy declared tree isSettled scope (decl, type))
    (shows : tree.Shows (Surroundings.declarationsFeatures ⟨declared, type, ""⟩ tree scope 0 decl.features)) :
    (surveyClass ⟨⟨hierarchy, type, ""⟩, some tree, scope, tree.slots scope⟩ decl).Assures hierarchy fun decl =>
      ∀ feature ∈ decl.features, feature.WellTyped hierarchy type isSettled
        (sight ⟨⟨hierarchy, type, ""⟩, some tree, scope, tree.slots scope⟩) :=
  (surveyFeatures_wellTyped known.settled 0 decl.features known.complete
    (fun index feature isAt => (Nat.zero_add index).symm ▸ known.knows index feature isAt) shows).bind
    fun _ ofFeatures => .pure ofFeatures

theorem surveyClasses_wellTyped {hierarchy declared : Hierarchy} {all : ClassTypes} {decls : List ClassDecl}
    {types : ClassTypes} {place : Nat} {scopes : List ScopeId}
    (places : scopes = (tree.children ScopeTree.root).drop place)
    (classes : List.Forall₂ (ClassKnown hierarchy declared tree isSettled) scopes (Program.typed ⟨decls⟩ types))
    (shows : tree.Shows (declarationsClasses declared all tree decls types scopes)) :
    (surveyClasses hierarchy (some tree) all place decls types).Assures hierarchy fun decls =>
      ∀ class' ∈ Program.typed ⟨decls⟩ types, ∃ sight, hierarchy.Shows class'.2 declared isSettled sight ∧
        ∀ feature ∈ class'.1.features, feature.WellTyped hierarchy class'.2 isSettled sight := by
  induction decls generalizing types place scopes with
  | nil =>
      rcases types with _ | ⟨_ | _, _⟩
      · exact .pure nofun
      · exact .pure nofun
      · exact .pure nofun
  | cons decl decls ih =>
      rcases types with _ | ⟨_ | type, types⟩
      · exact .pure nofun
      · exact (ih places classes shows).bind fun _ ofClasses => .pure ofClasses
      · obtain _ | ⟨scope, scopes⟩ := scopes
        · cases classes
        cases classes with
        | cons first later =>
            obtain ⟨isNext, places⟩ := next_of_drop places.symm
            have isChild := ScopeTree.child_of_getElem? isNext
            have isSite : ofClass hierarchy (some tree) all type place =
                ⟨⟨hierarchy, type, ""⟩, some tree, scope, tree.slots scope⟩ := by
              rw [ofClass, inside, slots, child]
              dsimp only [Option.elim_some]
              rw [isChild, List.append_nil]
            obtain ⟨_, shows⟩ := shows.cons
            rw [surveyClasses, isSite]
            exact (surveyClass_wellTyped first shows.append.1).bind fun _ ofDecl =>
              (ih places.symm later shows.append.2).bind fun _ ofDecls =>
              .pure (List.forall_mem_cons.mpr ⟨⟨_, first.shows, ofDecl⟩, ofDecls⟩)


end Site

end CoolLang
