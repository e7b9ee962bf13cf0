import CoolLang.Proofs.Hierarchy.Signatures
import CoolLang.Proofs.Hierarchy.Validity

/-!
Programs of which nothing is reported. There every class has a type, and every feature is one of its class, with
types that its declaration names (`Hierarchy.build_introduces`).
-/

namespace CoolLang

/-- What a step that reports nothing establishes, and other steps keep, holds after all of them. -/
theorem reportEach_establishes {σ α : Type} {p q : σ → Prop} {step : σ → α → Reported σ} {item : α}
    (keeps : ∀ state item, p state → p (step state item).1)
    (establishes : ∀ state, p state → (step state item).2 = [] → q (step state item).1)
    (stays : ∀ state item, p state → q state → q (step state item).1) {state : σ} {items : List α}
    (member : item ∈ items) (begun : p state) (clean : (reportEach step state items).2 = []) :
    q (reportEach step state items).1 := by
  induction items generalizing state with
  | nil => cases member
  | cons first items ih =>
      obtain ⟨now, later⟩ := List.append_eq_nil_iff.mp clean
      rcases List.mem_cons.mp member with rfl | member
      · have both := reportEach_keeps (p := fun state => p state ∧ q state)
          (fun state item ⟨before, after⟩ => ⟨keeps state item before, stays state item before after⟩)
          ⟨keeps state item begun, establishes state begun now⟩ items
        exact both.2
      · exact ih member (keeps state first begun) later

namespace Hierarchy

variable {hierarchy next base : Hierarchy} {type other : TypeId} {feature : Feature}

/-! ### Classes -/

theorem collectAll_typed {decls : List ClassDecl} (clean : (hierarchy.collectAll decls).2.2 = []) :
    ((Program.typed ⟨decls⟩ (hierarchy.collectAll decls).2.1).map Prod.fst) = decls := by
  induction decls generalizing hierarchy with
  | nil => rfl
  | cons decl decls ih =>
      rw [collectAll] at clean ⊢
      cases created : hierarchy.create decl.name.name with
      | ok made =>
          rw [created] at clean
          exact congrArg (decl :: ·) (ih clean)
      | error error =>
          rw [created] at clean
          cases clean

/-! ### Features -/

/-- Whether a class has a feature as it is declared, with types that the declaration names. -/
def Introduces (hierarchy : Hierarchy) (type : TypeId) : Feature → Prop
  | .attribute decl => (∃ named, hierarchy.find? decl.type.name = some named) ∧
      hierarchy.declaredAttribute decl ∈ (hierarchy.info type).attributes
  | .method decl =>
      (∀ param ∈ decl.params, ∃ named, hierarchy.find? param.type.name = some named ∧ named ≠ .selfType) ∧
      (∃ named, hierarchy.find? decl.result.name = some named) ∧
      hierarchy.declaredMethod decl ∈ (hierarchy.info type).methods

theorem find?_of_resolve {written : Ident} (clean : (hierarchy.resolve written).2 = []) :
    ∃ named, hierarchy.find? written.name = some named ∧ (hierarchy.resolve written).1 = named := by
  unfold resolve get at clean ⊢
  cases found : hierarchy.find? written.name with
  | some named => exact ⟨named, rfl, rfl⟩
  | none =>
      rw [found] at clean
      cases clean

theorem find?_of_resolveParam {param : Param} (clean : (hierarchy.resolveParam param).2 = []) :
    ∃ named, hierarchy.find? param.type.name = some named ∧ named ≠ .selfType := by
  unfold resolveParam at clean
  dsimp only at clean
  split at clean
  · cases (List.append_eq_nil_iff.mp clean).2
  · rename_i notSelf
    obtain ⟨named, found, same⟩ := find?_of_resolve clean
    exact ⟨named, found, same ▸ notSelf⟩

theorem orReport_ok {position : Position} {outcome : Except HierarchyError Hierarchy}
    (clean : (hierarchy.orReport position outcome).2 = []) :
    outcome = .ok (hierarchy.orReport position outcome).1 := by
  cases outcome with
  | ok next => rfl
  | error error => cases clean

/-- Only what the names stand for matters, and that nothing is taken away. -/
theorem Introduces.mono (alike : next.Alike hierarchy)
    (attributes : (hierarchy.info type).attributes ⊆ (next.info type).attributes)
    (methods : (hierarchy.info type).methods ⊆ (next.info type).methods)
    (introduces : hierarchy.Introduces type feature) : next.Introduces type feature := by
  rcases feature with decl | decl
  · unfold Introduces at introduces ⊢
    rw [alike.find?, alike.declaredAttribute]
    exact ⟨introduces.1, attributes introduces.2⟩
  · unfold Introduces at introduces ⊢
    rw [alike.find?, alike.declaredMethod]
    exact ⟨introduces.1, introduces.2.1, methods introduces.2.2⟩

/-- Defining features takes nothing away. -/
theorem defineFeature_subset (known : type.index < hierarchy.types.size) (owner : TypeId) (feature : Feature) :
    (hierarchy.info type).attributes ⊆ ((defineFeature owner hierarchy feature).1.info type).attributes ∧
      (hierarchy.info type).methods ⊆ ((defineFeature owner hierarchy feature).1.info type).methods := by
  by_cases apart : type = owner
  · subst apart
    rcases feature with decl | decl
    · rw [defineFeature_attribute known]
      split
      · exact ⟨List.Subset.refl _, List.Subset.refl _⟩
      · exact ⟨List.subset_append_left _ _, List.Subset.refl _⟩
    · rw [defineFeature_method known]
      split
      · exact ⟨List.Subset.refl _, List.Subset.refl _⟩
      · exact ⟨List.Subset.refl _, List.subset_append_left _ _⟩
  · rw [defineFeature_info_of_ne apart]
    exact ⟨List.Subset.refl _, List.Subset.refl _⟩

theorem defineFeature_introduces (known : type.index < hierarchy.types.size)
    (clean : (defineFeature type hierarchy feature).2 = []) :
    (defineFeature type hierarchy feature).1.Introduces type feature := by
  have alike := defineFeature_alike type hierarchy feature
  rcases feature with decl | decl
  · have isInfo := defineFeature_attribute known decl
    unfold Introduces
    rw [alike.find?, alike.declaredAttribute, isInfo]
    obtain ⟨resolved, defined⟩ := List.append_eq_nil_iff.mp clean
    obtain ⟨named, found, _⟩ := find?_of_resolve resolved
    refine ⟨⟨named, found⟩, ?_⟩
    rw [if_neg]
    · exact List.mem_append_right _ (List.mem_singleton_self _)
    · intro taken
      have isTaken : ((hierarchy.info type).attribute? decl.name.name).isSome := TypeInfo.isSome_attribute?_iff.mpr taken
      obtain ⟨_, isKnown⟩ := Option.isSome_iff_exists.mp isTaken
      have defined := orReport_ok defined
      rw [defineAttribute, isKnown] at defined
      cases defined
  · have isInfo := defineFeature_method known decl
    unfold Introduces
    rw [alike.find?, alike.declaredMethod, isInfo]
    obtain ⟨resolved, defined⟩ := List.append_eq_nil_iff.mp clean
    obtain ⟨ofParams, ofResult⟩ := List.append_eq_nil_iff.mp resolved
    obtain ⟨named, found, _⟩ := find?_of_resolve ofResult
    refine ⟨fun param isParam => ?_, ⟨named, found⟩, ?_⟩
    · exact find?_of_resolveParam (List.flatMap_eq_nil_iff.mp ofParams _ (List.mem_map_of_mem isParam))
    · rw [if_neg]
      · exact List.mem_append_right _ (List.mem_singleton_self _)
      · intro taken
        have isTaken : ((hierarchy.info type).method? decl.name.name).isSome := TypeInfo.isSome_method?_iff.mpr taken
        obtain ⟨_, isKnown⟩ := Option.isSome_iff_exists.mp isTaken
        have defined := orReport_ok defined
        rw [defineMethod, show (Method.declared decl.name.name _ _ _).name = decl.name.name from rfl, isKnown] at defined
        cases defined

theorem defineFeatures_keeps_introduced (known : type.index < hierarchy.types.size) (owner : TypeId)
    (features : List Feature) (introduces : hierarchy.Introduces type feature) :
    (reportEach (defineFeature owner) hierarchy features).1.Introduces type feature := by
  have kept := reportEach_keeps
    (p := fun state : Hierarchy => type.index < state.types.size ∧ state.Introduces type feature) (fun state other ⟨known, introduces⟩ => by
      obtain ⟨attributes, methods⟩ := defineFeature_subset known owner other
      have alike := defineFeature_alike owner state other
      exact ⟨alike.size ▸ known, introduces.mono alike attributes methods⟩) ⟨known, introduces⟩ features
  exact kept.2

theorem defineFeatures_introduces {features : List Feature} (known : type.index < hierarchy.types.size)
    (clean : (reportEach (defineFeature type) hierarchy features).2 = []) (member : feature ∈ features) :
    (reportEach (defineFeature type) hierarchy features).1.Introduces type feature :=
  reportEach_establishes (p := fun state : Hierarchy => type.index < state.types.size)
    (fun state other known => (defineFeature_alike type state other).size ▸ known)
    (fun _ known clean => defineFeature_introduces known clean)
    (fun _ other known introduces => defineFeatures_keeps_introduced known type [other] introduces)
    member known clean

theorem defineAllFeatures_introduces {typed : List (ClassDecl × TypeId)}
    (known : ∀ class' ∈ typed, class'.2.index < hierarchy.types.size)
    (clean : (reportEach defineFeatures hierarchy typed).2 = []) :
    ∀ class' ∈ typed, ∀ feature ∈ class'.1.features,
      (reportEach defineFeatures hierarchy typed).1.Introduces class'.2 feature := by
  intro class' member feature isFeature
  refine reportEach_establishes (p := fun state : Hierarchy => class'.2.index < state.types.size)
    (q := fun state : Hierarchy => state.Introduces class'.2 feature) (fun state other known => ?_)
    (fun state known clean => ?_) (fun state other known introduces => ?_) member (known class' member) clean
  · exact (defineAllFeatures_alike state [other]).size ▸ known
  · exact defineFeatures_introduces known clean isFeature
  · exact defineFeatures_keeps_introduced known other.2 other.1.features introduces

/-- Where nothing is reported of the features of classes, each class has all of its own. -/
theorem build_introduces {program : Program} {types : ClassTypes}
    (numbered : (program.typed types).map Prod.snd = (List.range' 8 (hierarchy.types.size - 8)).map TypeId.mk)
    (clean : (hierarchy.build program types).2 = []) :
    ∀ class' ∈ program.typed types, ∀ feature ∈ class'.1.features,
      (hierarchy.build program types).1.Introduces class'.2 feature := by
  refine defineAllFeatures_introduces (fun class' member => ?_) ?_
  · rw [size_breakCycles, size_linkParents, (defineBuiltins_alike hierarchy).size]
    exact (mem_numbered numbered member).2
  · exact (List.append_eq_nil_iff.mp (List.append_eq_nil_iff.mp (List.append_eq_nil_iff.mp clean).1).1).2

end Hierarchy

end CoolLang
