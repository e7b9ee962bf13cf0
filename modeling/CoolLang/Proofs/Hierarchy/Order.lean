import CoolLang.Proofs.Hierarchy.Collecting

/-!
The order of classes. Where the parents that classes declare form no cycle, every class keeps the parent that it
declares, and what is reported of it does not depend on other classes before or after it. So the same classes in
another order make the same hierarchy under other numbers (`Hierarchy.build_renames`), and the same is reported of
them (`Hierarchy.build_perm`).
-/

namespace CoolLang

open Relation

namespace Hierarchy

variable {hierarchy base one two : Hierarchy} {type : TypeId} {rename : TypeId → TypeId}

/-! ### Reports of features -/

/-- What is reported of features in turn, where some attributes and methods of their type are known. -/
def featureFaults (hierarchy : Hierarchy) (owner : String) :
    List String → List String → List Feature → List Diagnostic
  | _, _, [] => []
  | attributes, methods, .attribute decl :: features =>
      (hierarchy.resolve decl.type).2 ++
        if decl.key ∈ attributes then
          ⟨decl.name.position, .duplicateAttribute decl.key owner⟩ ::
            featureFaults hierarchy owner attributes methods features
        else featureFaults hierarchy owner (attributes ++ [decl.key]) methods features
  | attributes, methods, .method decl :: features =>
      decl.params.flatMap (fun param => (hierarchy.resolveParam param).2) ++ (hierarchy.resolve decl.result).2 ++
        if decl.key ∈ methods then
          ⟨decl.name.position, .duplicateMethod decl.key owner⟩ ::
            featureFaults hierarchy owner attributes methods features
        else featureFaults hierarchy owner attributes (methods ++ [decl.key]) features

/-- Of a hierarchy only the reports on names matter. -/
theorem featureFaults_congr (resolve : ∀ written, (two.resolve written).2 = (one.resolve written).2)
    (resolveParam : ∀ param, (two.resolveParam param).2 = (one.resolveParam param).2) :
    two.featureFaults = one.featureFaults := by
  funext owner attributes methods features
  induction features generalizing attributes methods with
  | nil => rfl
  | cons feature features ih =>
      rcases feature with decl | decl
      · rw [featureFaults, featureFaults, resolve, ih, ih]
      · rw [featureFaults, featureFaults, resolve, ih, ih]
        simp only [resolveParam]

theorem defineAttribute_report (decl : AttributeDecl) :
    (defineFeature type hierarchy (.attribute decl)).2 = (hierarchy.resolve decl.type).2 ++
      if decl.key ∈ (hierarchy.info type).attributes.map Attribute.name then
        [⟨decl.name.position, .duplicateAttribute decl.key (hierarchy.name type)⟩]
      else [] := by
  have isTaken : ((hierarchy.info type).attribute? decl.key).isSome ↔ _ := TypeInfo.isSome_attribute?_iff
  unfold defineFeature defineAttribute
  dsimp only
  refine congrArg (_ ++ ·) ?_
  cases found : (hierarchy.info type).attribute? decl.name.name with
  | some _ => exact (if_pos (isTaken.mp (Option.isSome_of_mem found))).symm
  | none =>
      refine (if_neg fun member => ?_).symm
      have isSome : ((hierarchy.info type).attribute? decl.name.name).isSome := isTaken.mpr member
      rw [found] at isSome
      cases isSome

theorem defineMethod_report (decl : MethodDecl) :
    (defineFeature type hierarchy (.method decl)).2 =
      decl.params.flatMap (fun param => (hierarchy.resolveParam param).2) ++ (hierarchy.resolve decl.result).2 ++
        if decl.key ∈ (hierarchy.info type).methods.map Method.name then
          [⟨decl.name.position, .duplicateMethod decl.key (hierarchy.name type)⟩]
        else [] := by
  have isTaken : ((hierarchy.info type).method? decl.key).isSome ↔ _ := TypeInfo.isSome_method?_iff
  unfold defineFeature defineMethod
  dsimp only
  rw [List.flatMap_map, show (Method.declared decl.name.name _ _ _).name = decl.name.name from rfl]
  refine congrArg₂ (· ++ ·) rfl ?_
  cases found : (hierarchy.info type).method? decl.name.name with
  | some _ => exact (if_pos (isTaken.mp (Option.isSome_of_mem found))).symm
  | none =>
      refine (if_neg fun member => ?_).symm
      have isSome : ((hierarchy.info type).method? decl.name.name).isSome := isTaken.mpr member
      rw [found] at isSome
      cases isSome

theorem Alike.resolveParam (alike : hierarchy.Alike base) : hierarchy.resolveParam = base.resolveParam := by
  funext param
  rw [Hierarchy.resolveParam, Hierarchy.resolveParam, alike.resolve]

/-- What is reported of the features of a type depends on the names that there are and on what the type has
already. -/
theorem defineFeatures_report (alike : hierarchy.Alike base) (known : type.index < hierarchy.types.size)
    (features : List Feature) :
    (reportEach (defineFeature type) hierarchy features).2 =
      base.featureFaults (base.name type) ((hierarchy.info type).attributes.map Attribute.name)
        ((hierarchy.info type).methods.map Method.name) features := by
  induction features generalizing hierarchy with
  | nil => rfl
  | cons feature features ih =>
      have step := defineFeature_alike type hierarchy feature
      have later := ih (step.trans alike) (step.size.symm ▸ known)
      rw [reportEach]
      dsimp only
      rw [later]
      rcases feature with decl | decl
      · rw [defineAttribute_report, defineFeature_attribute known, alike.resolve, alike.name, featureFaults,
          List.append_assoc]
        split
        · rfl
        · rw [List.map_append]
          rfl
      · rw [defineMethod_report, defineFeature_method known, alike.resolve, alike.resolveParam, alike.name,
          featureFaults, List.append_assoc _ (ite ..)]
        split
        · rfl
        · rw [List.map_append]
          rfl

/-- What is reported of the features of a class does not depend on other classes. -/
theorem defineAllFeatures_report (alike : hierarchy.Alike base) {typed : List (ClassDecl × TypeId)}
    (apart : (typed.map Prod.snd).Nodup) (known : ∀ class' ∈ typed, class'.2.index < hierarchy.types.size)
    (none : ∀ class' ∈ typed, (hierarchy.info class'.2).attributes = [] ∧
      (hierarchy.info class'.2).methods = []) :
    (reportEach defineFeatures hierarchy typed).2 =
      typed.flatMap fun class' => base.featureFaults (base.name class'.2) [] [] class'.1.features := by
  induction typed generalizing hierarchy with
  | nil => rfl
  | cons first typed ih =>
      obtain ⟨isApart, apart⟩ := List.nodup_cons.mp apart
      obtain ⟨isKnown, known⟩ := List.forall_mem_cons.mp known
      obtain ⟨isNone, none⟩ := List.forall_mem_cons.mp none
      have step : (hierarchy.defineFeatures first).1.Alike hierarchy :=
        defineAllFeatures_alike hierarchy [first]
      have now := defineFeatures_report alike isKnown first.1.features
      rw [isNone.1, isNone.2] at now
      rw [reportEach, List.flatMap_cons]
      refine congrArg₂ (· ++ ·) now (ih (step.trans alike) apart
        (fun class' member => step.size.symm ▸ known class' member) fun class' member => ?_)
      rw [defineFeatures_info_of_ne fun same => isApart (same ▸ List.mem_map_of_mem member)]
      exact none class' member

/-! ### Building without cycles -/

theorem resolve_congr (same : one.find? = two.find?) : one.resolve = two.resolve := by
  funext written
  rw [resolve, get, same, resolve, get]

theorem declaredAttribute_congr (same : one.find? = two.find?) : one.declaredAttribute = two.declaredAttribute := by
  funext decl
  rw [declaredAttribute, resolve_congr same, declaredAttribute]

theorem declaredMethod_congr (same : one.find? = two.find?) : one.declaredMethod = two.declaredMethod := by
  funext decl
  simp only [declaredMethod, resolveParam, resolve_congr same]

/-- Building names no type, and seals none. -/
theorem build_label (hierarchy : Hierarchy) (program : Program) (types : ClassTypes) (type : TypeId) :
    ((hierarchy.build program types).1.info type).name = (hierarchy.info type).name ∧
      ((hierarchy.build program types).1.info type).isSealed = (hierarchy.info type).isSealed := by
  let Keeps (state : Hierarchy) : Prop :=
    (state.info type).name = (hierarchy.info type).name ∧ (state.info type).isSealed = (hierarchy.info type).isSealed
  have ofAlike {one two : Hierarchy} (alike : one.Alike two) (keeps : Keeps two) : Keeps one :=
    ⟨(alike.name type).trans keeps.1, (alike.isSealed type).trans keeps.2⟩
  have setParent (state : Hierarchy) (child parent : TypeId) (keeps : Keeps state) :
      Keeps (state.setParent child parent) := by
    show _ ∧ _
    rw [Hierarchy.setParent, info_update_eq]
    split
    · exact keeps
    · exact keeps
  have linked : Keeps (reportEach linkParent hierarchy.defineBuiltins (program.typed types)).1 :=
    reportEach_keeps (p := Keeps) (fun state class' keeps => setParent state _ _ keeps)
      (ofAlike (defineBuiltins_alike hierarchy) ⟨rfl, rfl⟩) (program.typed types)
  have broken : Keeps (reportEach breakCycle _ (program.typed types)).1 :=
    reportEach_keeps (p := Keeps) (fun state class' keeps => by
      unfold breakCycle
      dsimp only
      split
      · exact setParent state _ _ keeps
      · exact keeps) linked (program.typed types)
  exact ofAlike (defineAllFeatures_alike _ (program.typed types)) broken

section

variable {program : Program} {types : ClassTypes} (collected : hierarchy.Collected)
  (numbered : (program.typed types).map Prod.snd = (List.range' 8 (hierarchy.types.size - 8)).map TypeId.mk)
  (acyclic : ∀ type, ¬TransGen (hierarchy.DeclaredParent (program.typed types)) type type)
include collected numbered acyclic

/-- Nothing is taken off a cycle where there is none. -/
theorem Collected.breaks_none :
    (reportEach breakCycle (reportEach linkParent hierarchy.defineBuiltins (program.typed types)).1
        (program.typed types)).2 = [] ∧
      ∀ class' ∈ program.typed types,
        (reportEach breakCycle (reportEach linkParent hierarchy.defineBuiltins (program.typed types)).1
          (program.typed types)).1.parent? class'.2 = some (hierarchy.declaredParent class'.1).1 := by
  obtain ⟨reported, found, parents, sublist, firsts⟩ := collected.breaks numbered
  obtain ⟨_, _, links, _⟩ := collected.links numbered
  have none : reported = [] := List.eq_nil_iff_forall_not_mem.mpr fun class' member => by
    obtain ⟨front, back, split⟩ := List.append_of_mem (sublist.subset member)
    exact acyclic _ ((firsts front class' back split).mp member).onCycle
  subst none
  exact ⟨found, fun class' member => (parents class'.2).trans (links class' member)⟩

/-- What building knows of a class is what the class declares. -/
theorem Collected.build_class {class' : ClassDecl × TypeId} (member : class' ∈ program.typed types) :
    (hierarchy.build program types).1.info class'.2 =
      ⟨hierarchy.name class'.2, some (hierarchy.declaredParent class'.1).1,
        class'.1.attributes.map hierarchy.declaredAttribute, class'.1.methods.map hierarchy.declaredMethod, false⟩ := by
  have features := collected.build_features numbered class' member
  have label := hierarchy.build_label program types class'.2
  have isParent : (hierarchy.build program types).1.parent? class'.2 = some (hierarchy.declaredParent class'.1).1 :=
    ((defineAllFeatures_alike _ _).parent? _).trans ((collected.breaks_none numbered acyclic).2 class' member)
  obtain ⟨large, known⟩ := mem_numbered numbered member
  obtain ⟨name, isNamed⟩ := collected.named class'.2 large known
  rw [declaredAttribute_congr (find?_build hierarchy program types),
    declaredMethod_congr (find?_build hierarchy program types)] at features
  have fields (info : TypeInfo) : info = ⟨info.name, info.parent, info.attributes, info.methods, info.isSealed⟩ := rfl
  rw [Hierarchy.parent?] at isParent
  rw [fields ((hierarchy.build program types).1.info class'.2), label.1, isParent, features.1, features.2, label.2,
    Hierarchy.name, isNamed]
  rfl

theorem Collected.build_report :
    (hierarchy.build program types).2 =
      (program.typed types).flatMap (fun class' => (hierarchy.declaredParent class'.1).2) ++
        (program.typed types).flatMap (fun class' =>
          hierarchy.featureFaults (hierarchy.name class'.2) [] [] class'.1.features) ++
        (program.typed types).flatMap (fun class' => (hierarchy.build program types).1.overrides class'.2) ++
        (hierarchy.build program types).1.missingMain (program.typed types) := by
  obtain ⟨_, links, _, _⟩ := collected.links numbered
  obtain ⟨noCycles, _⟩ := collected.breaks_none numbered acyclic
  have alike := defineAllFeatures_alike (reportEach breakCycle (reportEach linkParent
    hierarchy.defineBuiltins (program.typed types)).1 (program.typed types)).1 (program.typed types)
  have sameNames := resolve_congr (alike.find?.symm.trans (find?_build hierarchy program types))
  have features := defineAllFeatures_report (.refl _) (nodup_numbered numbered) (fun class' member => by
    rw [size_breakCycles, size_linkParents, (defineBuiltins_alike hierarchy).size]
    exact (mem_numbered numbered member).2) (collected.linked_none numbered)
  have sameFaults := featureFaults_congr (fun written => congrArg Prod.snd (congrFun sameNames written)) fun param => by
    simp only [resolveParam, sameNames]
  rw [sameFaults] at features
  have isName (type : TypeId) := (alike.name type).symm.trans (hierarchy.build_label program types type).1
  simp only [isName] at features
  unfold build
  dsimp only
  rw [links, noCycles, features, List.append_nil, ← List.flatMap_def]
  rfl

end

/-! ### Other orders -/

theorem find?_perm {α : Type} {p : α → Bool} {front back : List α} (perm : front.Perm back)
    (unique : ∀ first ∈ front, ∀ second ∈ front, p first = true → p second = true → first = second) :
    front.find? p = back.find? p := by
  cases found : front.find? p with
  | none =>
      refine (List.find?_eq_none.mpr fun item member => ?_).symm
      exact List.find?_eq_none.mp found item (perm.mem_iff.mpr member)
  | some item =>
      have isItem := List.mem_of_find?_eq_some found
      have holds := List.find?_some found
      obtain ⟨other, found'⟩ := Option.isSome_iff_exists.mp
        (List.find?_isSome.mpr ⟨item, perm.mem_iff.mp isItem, holds⟩)
      rw [found', unique item isItem other (perm.mem_iff.mpr (List.mem_of_find?_eq_some found')) holds
        (List.find?_some found')]

section

variable {program other : Program} {types types' : ClassTypes} (renames : Renames rename one two)
  (perm : ((program.typed types).map (Prod.map id rename)).Perm (other.typed types'))
include renames perm

/-- Which class is the main one does not depend on the order of classes of distinct names. -/
theorem Renames.missingMain (apart : ((program.typed types).map fun class' => class'.1.typeName).Nodup) :
    two.missingMain (other.typed types') = one.missingMain (program.typed types) := by
  have found : (other.typed types').find? (fun class' => class'.1.name.name == "Main") =
      ((program.typed types).find? fun class' => class'.1.name.name == "Main").map (Prod.map id rename) := by
    refine (find?_perm perm ?_).symm.trans List.find?_map
    intro first isFirst second isSecond firstMain secondMain
    obtain ⟨class', member, rfl⟩ := List.mem_map.mp isFirst
    obtain ⟨class'', member', rfl⟩ := List.mem_map.mp isSecond
    refine congrArg _ (List.inj_on_of_nodup_map apart member member' ?_)
    exact (beq_iff_eq.mp firstMain).trans (beq_iff_eq.mp secondMain).symm
  unfold Hierarchy.missingMain
  dsimp only
  rw [found]
  cases (program.typed types).find? fun class' => class'.1.name.name == "Main" with
  | none => rfl
  | some class' =>
      have same : (two.method? (rename class'.2) "main").any (fun found => found.2.params.isEmpty) =
          (one.method? class'.2 "main").any fun found => found.2.params.isEmpty := by
        rw [renames.method?, Option.any_map]
        refine congrArg (Option.any · _) (funext fun found => ?_)
        exact List.isEmpty_map ..
      simp only [Option.map_some, Option.bind_some, Prod.map_snd, Prod.map_fst, id, same, Option.elim_some]

variable (ofOne : one.Collected) (ofTwo : two.Collected)
  (numbered : (program.typed types).map Prod.snd = (List.range' 8 (one.types.size - 8)).map TypeId.mk)
  (numbered' : (other.typed types').map Prod.snd = (List.range' 8 (two.types.size - 8)).map TypeId.mk)
  (acyclic : ∀ type, ¬TransGen (one.DeclaredParent (program.typed types)) type type)
  (acyclic' : ∀ type, ¬TransGen (two.DeclaredParent (other.typed types')) type type)
include ofOne ofTwo numbered numbered' acyclic acyclic'

/-- The same classes in another order make the same hierarchy under other numbers. -/
theorem build_renames : Renames rename (one.build program types).1 (two.build other types').1 where
  injective := renames.injective
  builtin := renames.builtin
  size := by
    rw [size_build, size_build]
    exact renames.size
  known type := by
    rw [size_build, size_build]
    exact renames.known type
  find? name := by
    rw [find?_build, find?_build]
    exact renames.find? name
  info type := by
    by_cases small : type.index < 8
    · have bare : ∀ type ∈ initial.ids, (∀ parent ∈ (initial.defineBuiltins.info type).parent, parent.index < 8) ∧
          (∀ attr ∈ (initial.defineBuiltins.info type).attributes, attr.type.index < 8) ∧
          ∀ method ∈ (initial.defineBuiltins.info type).methods,
            (∀ param ∈ method.params, param.type.index < 8) ∧ method.result.type.index < 8 := by
        decide
      obtain ⟨parents, attributes, methods⟩ := bare type (mem_ids.mpr small)
      rw [renames.builtin type small, ofTwo.build_builtin numbered' small, ofOne.build_builtin numbered small]
      exact (TypeInfo.retype_of_builtin renames.builtin parents attributes methods).symm
    · by_cases known : type.index < one.types.size
      · have listed : type ∈ (program.typed types).map Prod.snd := by
          rw [numbered]
          exact List.mem_map.mpr ⟨type.index, List.mem_range'_1.mpr (by omega), rfl⟩
        obtain ⟨class', member, rfl⟩ := List.mem_map.mp listed
        have member' : (class'.1, rename class'.2) ∈ other.typed types' :=
          perm.mem_iff.mp (List.mem_map_of_mem (f := Prod.map id rename) member)
        rw [ofOne.build_class numbered acyclic member, ofTwo.build_class numbered' acyclic' member', renames.name,
          renames.declaredParent, TypeInfo.retype, List.map_map, List.map_map]
        refine congrArg₂ (fun attributes methods => TypeInfo.mk _ _ attributes methods _) ?_ ?_
        · exact List.map_congr_left fun decl _ => renames.declaredAttribute decl
        · exact List.map_congr_left fun decl _ => renames.declaredMethod decl
      · have unknown (hierarchy : Hierarchy) {type : TypeId} (outside : ¬type.index < hierarchy.types.size) :
            hierarchy.info type = default := by
          rw [Hierarchy.info, Array.getElem?_eq_none (Nat.le_of_not_lt outside)]
          rfl
        rw [unknown, unknown]
        · rfl
        · rwa [size_build]
        · rwa [size_build, renames.known]

/-- The same is reported of classes in another order. -/
theorem build_perm (apart : ((program.typed types).map fun class' => class'.1.typeName).Nodup) :
    (two.build other types').2.Perm (one.build program types).2 := by
  have built := build_renames renames perm ofOne ofTwo numbered numbered' acyclic acyclic'
  have flatMap {report report' : ClassDecl × TypeId → List Diagnostic}
      (same : ∀ class', report' (Prod.map id rename class') = report class') :
      ((other.typed types').flatMap report').Perm ((program.typed types).flatMap report) := by
    refine (perm.symm.flatMap_right report').trans (List.Perm.of_eq ?_)
    rw [List.flatMap_map]
    exact List.flatMap_congr fun class' _ => same class'
  rw [ofOne.build_report numbered acyclic, ofTwo.build_report numbered' acyclic']
  refine ((flatMap fun class' => ?_).append (flatMap fun class' => ?_)).append (flatMap fun class' => ?_) |>.append
    (List.Perm.of_eq (built.missingMain perm apart))
  · exact (congrArg Prod.snd (renames.declaredParent class'.1)).trans rfl
  · have same : two.featureFaults = one.featureFaults := featureFaults_congr
      (fun written => (congrArg Prod.snd (renames.resolve written)).trans rfl)
      fun param => (congrArg Prod.snd (renames.resolveParam param)).trans rfl
    rw [same]
    exact congrArg (one.featureFaults · [] [] class'.1.features) (renames.name class'.2)
  · exact built.overrides class'.2

end

end Hierarchy

end CoolLang
