import CoolLang.Proofs.Hierarchy.Signatures
import CoolLang.Proofs.Hierarchy.Validity

/-!
Overriding. Each class is only compared with the nearest definitions that it inherits, up to types that are
not known yet. Where all types are written and nothing is reported, what a class has is had by all classes
below it: every method with its types, and every attribute as the same one of the same owner
(`Hierarchy.overriding_safe`).
-/

namespace CoolLang

/-- Whether all types of a signature are known. -/
structure Method.Checked (method : Method) : Prop where
  params : ∀ param ∈ method.params, param.type.isChecked = true
  result : method.result.type.isChecked = true

namespace Hierarchy

variable {hierarchy : Hierarchy} {type parent owner : TypeId} {name : String}

/-! ### Looking up -/

theorem Rooted.parent?_of_ancestors (rooted : hierarchy.Rooted) (isClass : hierarchy.IsClass parent)
    (above : hierarchy.ancestors type = type :: hierarchy.ancestors parent) :
    hierarchy.parent? type = some parent := by
  obtain ⟨count, size⟩ := Nat.exists_eq_succ_of_ne_zero (Nat.ne_of_gt rooted.positive)
  have member : parent ∈ hierarchy.line count (hierarchy.parent? type) := by
    have rest := above
    rw [ancestors, size, line] at rest
    rw [List.tail_eq_of_cons_eq rest]
    exact rooted.mem_ancestors_self isClass
  cases isParent : hierarchy.parent? type with
  | none =>
      rw [isParent, line_none] at member
      cases member
  | some found =>
      have rest := above
      rw [ancestors, size, line, isParent, ancestors, size, line] at rest
      cases count with
      | zero =>
          rw [isParent] at member
          cases member
      | succ count =>
          rw [line] at rest
          exact congrArg some (List.cons.inj (List.cons.inj rest).2).1

theorem attribute?_of_ancestors (above : hierarchy.ancestors type = type :: hierarchy.ancestors parent) :
    hierarchy.attribute? type name = (((hierarchy.info type).attribute? name).map fun attr => (type, attr)).or
      (hierarchy.attribute? parent name) := by
  rw [attribute?, above, List.findSome?_cons]
  cases ((hierarchy.info type).attribute? name).map fun attr => (type, attr) <;> rfl

theorem method?_of_ancestors (above : hierarchy.ancestors type = type :: hierarchy.ancestors parent) :
    hierarchy.method? type name = (((hierarchy.info type).method? name).map fun method => (type, method)).or
      (hierarchy.method? parent name) := by
  rw [method?, above, List.findSome?_cons]
  cases ((hierarchy.info type).method? name).map fun method => (type, method) <;> rfl

/-! ### One class and its parent -/

theorem sameType_eq {left right : TypeId} (ofLeft : left.isChecked = true) (ofRight : right.isChecked = true)
    (same : sameType left right = true) : left = right := by
  rw [sameType, ofLeft, ofRight, Bool.not_true, Bool.or_false, Bool.or_false, beq_iff_eq] at same
  exact same

/-- Signatures that are compared position by position. -/
theorem sameSignature_iff {left right : Method} : sameSignature left right = true ↔
    List.Forall₂ (fun left right : Variable => sameType left.type right.type = true) left.params right.params ∧
      sameType left.result.type right.result.type = true := by
  rw [sameSignature, Bool.and_eq_true, Bool.and_eq_true, beq_iff_eq, List.all_eq_true,
    List.forall₂_iff_zip]
  refine and_congr_left fun _ => and_congr_right fun _ => ?_
  exact ⟨fun all one two member => all (one, two) member, fun all pair member => all member⟩

section

variable (isParent : hierarchy.parent? type = some parent) (accepted : hierarchy.overrides type = [])
include isParent accepted

/-- A class whose features are accepted defines no attribute again. -/
theorem attribute?_own_of_accepted (inherited : (hierarchy.attribute? parent name).isSome) :
    (hierarchy.info type).attribute? name = none := by
  rw [overrides, isParent] at accepted
  have none := List.filterMap_eq_nil_iff.mp (List.append_eq_nil_iff.mp accepted).1
  cases own : (hierarchy.info type).attribute? name with
  | none => rfl
  | some attr =>
      have isNamed : attr.name = name := by simpa using List.find?_some own
      have absent := none attr (List.mem_of_find?_eq_some own)
      rw [attributeOverride?, Option.map_eq_none_iff, isNamed] at absent
      rw [absent] at inherited
      cases inherited

/-- A class whose features are accepted keeps the signatures of methods as far as they are known. -/
theorem sameSignature_of_accepted {own inherited : Method}
    (isOwn : (hierarchy.info type).method? name = some own)
    (isInherited : hierarchy.method? parent name = some (owner, inherited)) :
    sameSignature own inherited = true := by
  rw [overrides, isParent] at accepted
  have none := List.filterMap_eq_nil_iff.mp (List.append_eq_nil_iff.mp accepted).2
  have isNamed := TypeInfo.method?_name isOwn
  have fits := none own (List.mem_of_find?_eq_some isOwn)
  rw [methodOverride?, isNamed, isInherited] at fits
  dsimp only at fits
  split at fits
  · assumption
  · cases fits

end

theorem forall₂_types {left right : List Variable} (ofLeft : ∀ info ∈ left, info.type.isChecked = true)
    (ofRight : ∀ info ∈ right, info.type.isChecked = true)
    (same : List.Forall₂ (fun left right : Variable => sameType left.type right.type = true) left right) :
    left.map Variable.type = right.map Variable.type := by
  induction same with
  | nil => rfl
  | cons first _ ih =>
      obtain ⟨ofOne, ofLeft⟩ := List.forall_mem_cons.mp ofLeft
      obtain ⟨ofTwo, ofRight⟩ := List.forall_mem_cons.mp ofRight
      rw [List.map_cons, List.map_cons, sameType_eq ofOne ofTwo first, ih ofLeft ofRight]

/-! ### All ancestors -/

/-- Whether a class has what another has: methods of the same types, and the same attributes. -/
structure Substitutes (hierarchy : Hierarchy) (lower upper : TypeId) : Prop where
  methods : ∀ name owner method, hierarchy.method? upper name = some (owner, method) →
    ∃ owner' method', hierarchy.method? lower name = some (owner', method') ∧
      method'.params.map Variable.type = method.params.map Variable.type ∧
      method'.result.type = method.result.type
  attributes : ∀ name found, hierarchy.attribute? upper name = some found →
    hierarchy.attribute? lower name = some found

theorem Substitutes.refl (hierarchy : Hierarchy) (type : TypeId) : hierarchy.Substitutes type type :=
  ⟨fun _ owner method found => ⟨owner, method, found, rfl, rfl⟩, fun _ _ found => found⟩

/-- Where each class is accepted and all types are known, a class has what its ancestors have. -/
theorem Rooted.substitutes (rooted : hierarchy.Rooted)
    (accepted : ∀ type, hierarchy.IsClass type → hierarchy.overrides type = [])
    (checked : ∀ owner, ∀ method ∈ (hierarchy.info owner).methods, method.Checked)
    {lower upper : TypeId} (isClass : hierarchy.IsClass lower) :
    upper ∈ hierarchy.ancestors lower → hierarchy.Substitutes lower upper := by
  refine rooted.induction (motive := fun lower => upper ∈ hierarchy.ancestors lower →
    hierarchy.Substitutes lower upper) ?_ ?_ isClass
  · intro member
    rw [rooted.ancestors_object, List.mem_singleton] at member
    exact member ▸ .refl hierarchy _
  · intro lower parent isClass isClass' above ih member
    have isParent := rooted.parent?_of_ancestors isClass' above
    rw [above] at member
    rcases List.mem_cons.mp member with rfl | member
    · exact .refl hierarchy upper
    · obtain ⟨methods, attributes⟩ := ih member
      refine ⟨fun name owner method found => ?_, fun name attr found => ?_⟩
      · obtain ⟨owner', inherited, isInherited, params, result⟩ := methods name owner method found
        rw [method?_of_ancestors above]
        cases isOwn : (hierarchy.info lower).method? name with
        | none => exact ⟨owner', inherited, isInherited, params, result⟩
        | some own =>
            have ofOwn := checked lower own (List.mem_of_find?_eq_some isOwn)
            have ofInherited := checked owner' inherited (method?_mem isInherited).2.2
            obtain ⟨sameParams, sameResult⟩ := sameSignature_iff.mp
              (sameSignature_of_accepted isParent (accepted lower isClass) isOwn isInherited)
            refine ⟨lower, own, rfl, Eq.trans ?_ params,
              (sameType_eq ofOwn.result ofInherited.result sameResult).trans result⟩
            exact forall₂_types ofOwn.params ofInherited.params sameParams
      · rw [attribute?_of_ancestors above, attribute?_own_of_accepted isParent (accepted lower isClass)
          (Option.isSome_of_mem (attributes name attr found))]
        exact attributes name attr found

/-! ### After building -/

theorem mem_features_of_mem_methods {decl : MethodDecl} {class' : ClassDecl} (member : decl ∈ class'.methods) :
    .method decl ∈ class'.features := by
  obtain ⟨feature, isFeature, isMethod⟩ := List.mem_filterMap.mp (mem_of_introduced member)
  rcases feature with _ | decl
  · cases isMethod
  · cases isMethod
    exact isFeature

theorem mem_features_of_mem_attributes {decl : AttributeDecl} {class' : ClassDecl}
    (member : decl ∈ class'.attributes) : .attribute decl ∈ class'.features := by
  obtain ⟨feature, isFeature, isAttribute⟩ := List.mem_filterMap.mp (mem_of_introduced member)
  rcases feature with decl | _
  · cases isAttribute
    exact isFeature
  · cases isAttribute

theorem resolve_ne_autoType (isNamed : hierarchy.name .autoType = "AUTO_TYPE") {written : Ident}
    (other : written.name ≠ "AUTO_TYPE") : (hierarchy.resolve written).1 ≠ .autoType := by
  unfold resolve
  cases found : hierarchy.get written.name with
  | error _ => exact nofun
  | ok type =>
      rintro (rfl : type = _)
      exact other ((find?_known (get_eq_ok.mp found)).2.2.symm.trans isNamed)

/-- A signature that does not write `AUTO_TYPE` leaves nothing to be inferred. -/
theorem declaredMethod_ne_autoType (isNamed : hierarchy.name .autoType = "AUTO_TYPE") {decl : MethodDecl}
    (written : ∀ written ∈ (Feature.method decl).writtenTypes, written.name ≠ "AUTO_TYPE") :
    (∀ param ∈ (hierarchy.declaredMethod decl).params, param.type ≠ .autoType) ∧
      (hierarchy.declaredMethod decl).result.type ≠ .autoType := by
  refine ⟨fun param isParam => ?_, resolve_ne_autoType isNamed (written decl.result
    (List.mem_append_right _ (List.mem_singleton_self _)))⟩
  obtain ⟨_, isResolved, rfl⟩ := List.mem_map.mp isParam
  obtain ⟨param, isWritten, rfl⟩ := List.mem_map.mp isResolved
  show (hierarchy.resolveParam param).1.2 ≠ .autoType
  unfold resolveParam
  dsimp only
  split
  · exact nofun
  · exact resolve_ne_autoType isNamed (written param.type (List.mem_append_left _ (List.mem_map_of_mem isWritten)))

/-- Each class that is not built in is one of the program. -/
theorem exists_class {program : Program} {types : ClassTypes}
    (numbered : (program.typed types).map Prod.snd =
      (List.range' 8 (hierarchy.types.size - 8)).map TypeId.mk)
    (large : 8 ≤ type.index) (known : type.index < (hierarchy.build program types).1.types.size) :
    ∃ class' ∈ program.typed types, class'.2 = type := by
  rw [size_build] at known
  refine List.mem_map.mp ?_
  rw [numbered, List.mem_map]
  exact ⟨type.index, List.mem_range'_1.mpr (by omega), rfl⟩

section

variable {program : Program} {types : ClassTypes} (collected : hierarchy.Collected)
  (numbered : (program.typed types).map Prod.snd =
    (List.range' 8 (hierarchy.types.size - 8)).map TypeId.mk)
include collected numbered

/-- Where features come from: they are built in, or those that a class declares, and no other number has
any. -/
theorem Collected.build_cases (owner : TypeId) :
    (owner.index < 8 ∧ (hierarchy.build program types).1.info owner = initial.defineBuiltins.info owner) ∨
      (∃ decl, (decl, owner) ∈ program.typed types ∧
        ((hierarchy.build program types).1.info owner).attributes =
          decl.attributes.map (hierarchy.build program types).1.declaredAttribute ∧
        ((hierarchy.build program types).1.info owner).methods =
          decl.methods.map (hierarchy.build program types).1.declaredMethod) ∨
      (hierarchy.build program types).1.info owner = default := by
  by_cases small : owner.index < 8
  · exact Or.inl ⟨small, collected.build_builtin numbered small⟩
  · by_cases known : owner.index < (hierarchy.build program types).1.types.size
    · obtain ⟨⟨decl, _⟩, isClass, rfl⟩ := exists_class numbered (Nat.le_of_not_lt small) known
      exact Or.inr (Or.inl ⟨decl, isClass, collected.build_features numbered _ isClass⟩)
    · refine Or.inr (Or.inr ?_)
      rw [info, Array.getElem?_eq_none (Nat.le_of_not_lt known)]
      rfl

/-- The built-in types keep their names. -/
theorem Collected.build_name_autoType : (hierarchy.build program types).1.name .autoType = "AUTO_TYPE" :=
  congrArg TypeInfo.name (collected.build_builtin numbered (by decide))

/-- Only classes have parents. -/
theorem Collected.build_isClass (isParent : (hierarchy.build program types).1.parent? type = some parent) :
    (hierarchy.build program types).1.IsClass type := by
  have known : type.index < (hierarchy.build program types).1.types.size := by
    by_contra unknown
    rw [parent?, info, Array.getElem?_eq_none (Nat.le_of_not_lt unknown)] at isParent
    cases isParent
  refine ⟨?_, known⟩
  by_cases small : type.index < 8
  · rw [parent?, collected.build_builtin numbered small] at isParent
    have all : ∀ type ∈ initial.ids, (initial.defineBuiltins.info type).parent.isSome = true →
        type.isConcrete = true := by
      decide
    exact all type (mem_ids.mpr small) (Option.isSome_of_mem isParent)
  · simp only [TypeId.isConcrete, Bool.and_eq_true, bne_iff_ne]
    refine ⟨⟨?_, ?_⟩, ?_⟩ <;> exact fun same => small (same ▸ by decide)

/-- Where nothing is written as `AUTO_TYPE`, no feature has a type that is to be inferred. -/
theorem Collected.build_settled (noAuto : ∀ class' ∈ program.typed types, ∀ feature ∈ class'.1.features,
    ∀ written ∈ feature.writtenTypes, written.name ≠ "AUTO_TYPE") (owner : TypeId) :
    (∀ attr ∈ ((hierarchy.build program types).1.info owner).attributes, attr.type ≠ .autoType) ∧
      ∀ method ∈ ((hierarchy.build program types).1.info owner).methods,
        (∀ param ∈ method.params, param.type ≠ .autoType) ∧ method.result.type ≠ .autoType := by
  rcases collected.build_cases numbered owner with
    ⟨small, isInfo⟩ | ⟨class', isClass, attributes, methods⟩ | isInfo
  · have all : ∀ type ∈ initial.ids,
        (∀ attr ∈ (initial.defineBuiltins.info type).attributes, attr.type ≠ .autoType) ∧
        ∀ method ∈ (initial.defineBuiltins.info type).methods,
          (∀ param ∈ method.params, param.type ≠ .autoType) ∧ method.result.type ≠ .autoType := by
      decide
    rw [isInfo]
    exact all owner (mem_ids.mpr small)
  · have isNamed := collected.build_name_autoType numbered
    rw [attributes, methods]
    refine ⟨fun attr member => ?_, fun method member => ?_⟩
    · obtain ⟨decl, isAttribute, rfl⟩ := List.mem_map.mp member
      exact resolve_ne_autoType isNamed (noAuto _ isClass (.attribute decl)
        (mem_features_of_mem_attributes isAttribute) decl.type (List.mem_singleton_self _))
    · obtain ⟨decl, isMethod, rfl⟩ := List.mem_map.mp member
      exact declaredMethod_ne_autoType isNamed
        (noAuto _ isClass (.method decl) (mem_features_of_mem_methods isMethod))
  · rw [isInfo]
    exact ⟨nofun, nofun⟩

variable (clean : (hierarchy.build program types).2 = [])
include clean

/-- What is reported for no class is accepted in all, and the built-in classes go together. -/
theorem Collected.build_accepted (isClass : (hierarchy.build program types).1.IsClass type) :
    (hierarchy.build program types).1.overrides type = [] := by
  have rooted := collected.build_rooted numbered
  by_cases small : type.index < 8
  · have builtin {type : TypeId} (small : type.index < 8) : _ = initial.defineBuiltins.info type :=
      collected.build_builtin numbered small
    by_cases isObject : type = .object
    · rw [isObject, overrides, rooted.top]
    · have all : ∀ type ∈ initial.ids, type.isConcrete = true → type ≠ .object →
          (initial.defineBuiltins.info type).parent = some .object ∧
          (initial.defineBuiltins.info type).attributes = [] ∧
          ∀ method ∈ (initial.defineBuiltins.info type).methods,
            (initial.defineBuiltins.info .object).method? method.name = none := by
        decide
      obtain ⟨isParent, noAttributes, apart⟩ := all type (mem_ids.mpr small) isClass.concrete isObject
      rw [overrides, parent?, builtin small, isParent]
      dsimp only
      rw [noAttributes, List.filterMap_nil, List.nil_append, List.filterMap_eq_nil_iff]
      intro method member
      rw [methodOverride?, method?, rooted.ancestors_object, List.findSome?_cons, builtin (by decide),
        apart method member]
      rfl
  · obtain ⟨class', member, rfl⟩ := exists_class numbered (Nat.le_of_not_lt small) isClass.known
    simp only [build, List.append_eq_nil_iff] at clean
    exact List.flatMap_eq_nil_iff.mp clean.1.2 class' member

/-- Where nothing is written as `AUTO_TYPE` either, all types of methods are known. -/
theorem Collected.build_checked (noAuto : ∀ class' ∈ program.typed types, ∀ feature ∈ class'.1.features,
    ∀ written ∈ feature.writtenTypes, written.name ≠ "AUTO_TYPE") :
    ∀ owner, ∀ method ∈ ((hierarchy.build program types).1.info owner).methods, method.Checked := by
  intro owner method member
  have isValid := (collected.build_valid (fun _ : True => clean) owner).methods method member
  obtain ⟨params, result⟩ := (collected.build_settled numbered noAuto owner).2 method member
  have checked {type : TypeId} (isKnown : type ≠ .autoType) (noError : type ≠ .error) :
      type.isChecked = true := by
    simp only [TypeId.isChecked, Bool.and_eq_true, bne_iff_ne]
    exact ⟨noError, isKnown⟩
  exact ⟨fun param isParam => checked (params param isParam) ((isValid.params param isParam).1.noError trivial),
    checked result (isValid.result.noError trivial)⟩

end

theorem mem_classes_of_mem_typed {program : Program} {types : ClassTypes} {class' : ClassDecl × TypeId}
    (member : class' ∈ program.typed types) : class'.1 ∈ program.classes := by
  obtain ⟨⟨decl, type⟩, isZipped, isTyped⟩ := List.mem_filterMap.mp member
  obtain ⟨type, _, rfl⟩ := Option.map_eq_some_iff.mp isTyped
  exact (List.of_mem_zip isZipped).1

theorem mem_types_of_mem_typed {program : Program} {types : ClassTypes} {class' : ClassDecl × TypeId}
    (member : class' ∈ program.typed types) : some class'.2 ∈ types := by
  obtain ⟨⟨decl, type⟩, isZipped, isTyped⟩ := List.mem_filterMap.mp member
  obtain ⟨type, rfl, rfl⟩ := Option.map_eq_some_iff.mp isTyped
  exact (List.of_mem_zip isZipped).2

/-- In a program that writes all types in signatures and in which building finds no fault, a class can stand
for every class that it conforms to. -/
theorem overriding_safe (program : Program)
    (noAuto : ∀ decl ∈ program.classes, ∀ feature ∈ decl.features, ∀ written ∈ feature.writtenTypes,
      written.name ≠ "AUTO_TYPE")
    (clean : ((initial.collect program).1.build program (initial.collect program).2.1).2 = []) :
    let built := ((initial.collect program).1.build program (initial.collect program).2.1).1
    ∀ lower upper, built.IsClass lower → built.IsClass upper → built.conforms lower upper = true →
      built.Substitutes lower upper := by
  intro built lower upper isLower isUpper conforms
  obtain ⟨collected, numbered⟩ := collect_collected program
  have numbered := (map_snd_typed (length_collect initial program)).trans numbered
  have rooted : built.Rooted := collected.build_rooted numbered
  have above : upper ∈ built.ancestors lower := (isLower.conforms_iff isUpper).mp conforms
  exact rooted.substitutes (fun type isClass => collected.build_accepted numbered clean isClass)
    (collected.build_checked numbered clean fun class' member =>
      noAuto class'.1 (mem_classes_of_mem_typed member)) isLower above

section

private def written (name : String) : Ident :=
  ⟨name, Position.first⟩

/-- A program in which a method is overridden. -/
def overriding : Program where
  classes := [
    ⟨written "Base", none, [.method ⟨written "twice", [⟨written "of", written "Int"⟩], written "Int",
      .integer ⟨Position.first, none⟩ 0⟩], Position.first⟩,
    ⟨written "Main", some (written "Base"), [
      .method ⟨written "twice", [⟨written "of", written "Int"⟩], written "Int", .integer ⟨Position.first, none⟩ 1⟩,
      .method ⟨written "main", [], written "Int", .integer ⟨Position.first, none⟩ 2⟩], Position.first⟩]

theorem overriding_safe_twice :
    ((initial.collect overriding).1.build overriding (initial.collect overriding).2.1).2 = [] ∧
      ((initial.collect overriding).1.build overriding (initial.collect overriding).2.1).1.Substitutes ⟨9⟩ ⟨8⟩ := by
  have clean : ((initial.collect overriding).1.build overriding (initial.collect overriding).2.1).2 = [] := by
    decide +kernel
  have noAuto : ∀ decl ∈ overriding.classes, ∀ feature ∈ decl.features, ∀ written ∈ feature.writtenTypes,
      written.name ≠ "AUTO_TYPE" := by
    simp [overriding, Feature.writtenTypes, written]
  exact ⟨clean, overriding_safe overriding noAuto clean ⟨9⟩ ⟨8⟩ ⟨rfl, by decide +kernel⟩
    ⟨rfl, by decide +kernel⟩ (by decide +kernel)⟩

end

end Hierarchy

end CoolLang
