import CoolLang.Proofs.Hierarchy.Tree
import CoolLang.Proofs.Hierarchy.Distinct

/-!
What building makes of features. A type has one attribute or method for each declaration of its class that
is the first of its name, in order and with the types that are written; built-in classes have the methods
that they begin with (`Hierarchy.Collected.build_features`, `Hierarchy.Collected.build_builtin`).
-/

namespace CoolLang

def Feature.attribute? : Feature → Option AttributeDecl
  | .attribute decl => some decl
  | .method _ => none

def Feature.method? : Feature → Option MethodDecl
  | .attribute _ => none
  | .method decl => some decl

def AttributeDecl.key (decl : AttributeDecl) : String :=
  decl.name.name

def MethodDecl.key (decl : MethodDecl) : String :=
  decl.name.name

namespace ClassDecl

/-- The attributes that a class gets: of those of one name only the first. -/
def attributes (decl : ClassDecl) : List AttributeDecl :=
  introduced AttributeDecl.key [] (decl.features.filterMap Feature.attribute?)

def methods (decl : ClassDecl) : List MethodDecl :=
  introduced MethodDecl.key [] (decl.features.filterMap Feature.method?)

end ClassDecl

theorem exists_introduced {α : Type} {name : α → String} {wanted : String} {taken : List String} {decls : List α}
    (free : wanted ∉ taken) (exists' : ∃ decl ∈ decls, name decl = wanted) :
    ∃ decl ∈ introduced name taken decls, name decl = wanted := by
  induction decls generalizing taken with
  | nil => exact absurd exists'.choose_spec.1 List.not_mem_nil
  | cons first decls ih =>
      rw [introduced]
      obtain ⟨decl, member, isNamed⟩ := exists'
      rcases List.mem_cons.mp member with rfl | member
      · rw [if_neg (isNamed ▸ free)]
        exact ⟨decl, List.mem_cons_self, isNamed⟩
      · split
        · exact ih free ⟨decl, member, isNamed⟩
        · by_cases isFirst : name first = wanted
          · exact ⟨first, List.mem_cons_self, isFirst⟩
          · have free' : wanted ∉ taken ++ [name first] := by
              rw [List.mem_append, List.mem_singleton, not_or]
              exact ⟨free, Ne.symm isFirst⟩
            obtain ⟨other, member, isNamed⟩ := ih free' ⟨decl, member, isNamed⟩
            exact ⟨other, List.mem_cons_of_mem _ member, isNamed⟩

theorem mem_of_introduced {α : Type} {name : α → String} {taken : List String} {decls : List α} {decl : α}
    (member : decl ∈ introduced name taken decls) : decl ∈ decls := by
  induction decls generalizing taken with
  | nil => exact member
  | cons first decls ih =>
      rw [introduced] at member
      split at member
      · exact List.mem_cons_of_mem _ (ih member)
      · rcases List.mem_cons.mp member with rfl | member
        · exact List.mem_cons_self
        · exact List.mem_cons_of_mem _ (ih member)

namespace TypeInfo

variable {info : TypeInfo} {name : String}

theorem isSome_attribute?_iff :
    (info.attribute? name).isSome ↔ name ∈ info.attributes.map Attribute.name := by
  simp only [attribute?, List.find?_isSome, beq_iff_eq, List.mem_map]

theorem isSome_method?_iff : (info.method? name).isSome ↔ name ∈ info.methods.map Method.name := by
  simp only [method?, List.find?_isSome, beq_iff_eq, List.mem_map]

end TypeInfo

theorem reportEach_keeps_of_mem {σ α : Type} {p : σ → Prop} {step : σ → α → Reported σ} {state : σ}
    {items : List α} (keeps : ∀ state, ∀ item ∈ items, p state → p (step state item).1) (holds : p state) :
    p (reportEach step state items).1 := by
  induction items generalizing state with
  | nil => exact holds
  | cons item items ih =>
      obtain ⟨first, later⟩ := List.forall_mem_cons.mp fun item member state => keeps state item member
      exact ih (fun state item member => later item member state) (first state holds)

namespace Hierarchy

variable {hierarchy next : Hierarchy} {type other : TypeId}

def declaredAttribute (hierarchy : Hierarchy) (decl : AttributeDecl) : Attribute :=
  ⟨decl.name.name, (hierarchy.resolve decl.type).1, decl.name.position⟩

def declaredMethod (hierarchy : Hierarchy) (decl : MethodDecl) : Method :=
  .declared decl.name.name (decl.params.map fun param => (hierarchy.resolveParam param).1)
    (hierarchy.resolve decl.result).1 decl.name.position

theorem type_declaredAttribute (hierarchy : Hierarchy) (decl : AttributeDecl) :
    (hierarchy.declaredAttribute decl).type = (hierarchy.resolve decl.type).1 :=
  rfl

theorem type_result_declaredMethod (hierarchy : Hierarchy) (decl : MethodDecl) :
    (hierarchy.declaredMethod decl).result.type = (hierarchy.resolve decl.result).1 :=
  rfl

theorem Alike.resolve (alike : hierarchy.Alike next) : hierarchy.resolve = next.resolve := by
  funext written
  rw [Hierarchy.resolve, alike.get, Hierarchy.resolve]

theorem Alike.declaredAttribute (alike : hierarchy.Alike next) :
    hierarchy.declaredAttribute = next.declaredAttribute := by
  funext decl
  rw [Hierarchy.declaredAttribute, alike.resolve, Hierarchy.declaredAttribute]

theorem Alike.declaredMethod (alike : hierarchy.Alike next) :
    hierarchy.declaredMethod = next.declaredMethod := by
  funext decl
  simp only [Hierarchy.declaredMethod, resolveParam, alike.resolve]

/-! ### Features of one class -/

theorem defineFeature_info_of_ne (apart : other ≠ type) (feature : Feature) :
    (defineFeature type hierarchy feature).1.info other = hierarchy.info other := by
  rcases feature with decl | decl
  · unfold defineFeature defineAttribute
    dsimp only
    split
    · rfl
    · exact info_update_of_ne apart
  · unfold defineFeature defineMethod
    dsimp only
    split
    · rfl
    · exact info_update_of_ne apart

theorem defineFeature_attribute (known : type.index < hierarchy.types.size) (decl : AttributeDecl) :
    (defineFeature type hierarchy (.attribute decl)).1.info type =
      if decl.key ∈ (hierarchy.info type).attributes.map Attribute.name then hierarchy.info type
      else { hierarchy.info type with
        attributes := (hierarchy.info type).attributes ++ [hierarchy.declaredAttribute decl] } := by
  have isTaken : ((hierarchy.info type).attribute? decl.key).isSome ↔ _ := TypeInfo.isSome_attribute?_iff
  unfold defineFeature defineAttribute
  dsimp only
  cases found : (hierarchy.info type).attribute? decl.name.name with
  | some _ => rw [if_pos (isTaken.mp (Option.isSome_of_mem found))]; rfl
  | none =>
      rw [if_neg fun member => ?_]
      · exact info_update_self known
      · have isSome : ((hierarchy.info type).attribute? decl.name.name).isSome := isTaken.mpr member
        rw [found] at isSome
        cases isSome

theorem defineFeature_method (known : type.index < hierarchy.types.size) (decl : MethodDecl) :
    (defineFeature type hierarchy (.method decl)).1.info type =
      if decl.key ∈ (hierarchy.info type).methods.map Method.name then hierarchy.info type
      else { hierarchy.info type with
        methods := (hierarchy.info type).methods ++ [hierarchy.declaredMethod decl] } := by
  have isTaken : ((hierarchy.info type).method? decl.key).isSome ↔ _ := TypeInfo.isSome_method?_iff
  have declared : hierarchy.declaredMethod decl = Method.declared decl.name.name
      ((decl.params.map hierarchy.resolveParam).map Prod.fst) (hierarchy.resolve decl.result).1
      decl.name.position := by
    rw [List.map_map]
    rfl
  unfold defineFeature defineMethod
  dsimp only
  cases found : (hierarchy.info type).method? decl.name.name with
  | some _ =>
      rw [if_pos (isTaken.mp (Option.isSome_of_mem found)),
        show (Method.declared decl.name.name _ _ _).name = decl.name.name from rfl, found]
      rfl
  | none =>
      rw [if_neg fun member => ?_]
      · rw [show (Method.declared decl.name.name _ _ _).name = decl.name.name from rfl, found]
        refine (info_update_self known).trans ?_
        rw [TypeInfo.putMethod, if_neg, declared]
        rw [show (Method.declared decl.name.name _ _ _).name = decl.name.name from rfl, found]
        exact nofun
      · have isSome : ((hierarchy.info type).method? decl.name.name).isSome := isTaken.mpr member
        rw [found] at isSome
        cases isSome

/-- Going through features in order, a type gets those with names that are free still. -/
theorem defineFeatures_info (hierarchy : Hierarchy) (features : List Feature) (known : type.index < hierarchy.types.size) :
    ((reportEach (defineFeature type) hierarchy features).1.info type).attributes =
      (hierarchy.info type).attributes ++
        (introduced AttributeDecl.key ((hierarchy.info type).attributes.map Attribute.name)
          (features.filterMap Feature.attribute?)).map hierarchy.declaredAttribute ∧
    ((reportEach (defineFeature type) hierarchy features).1.info type).methods =
      (hierarchy.info type).methods ++
        (introduced MethodDecl.key ((hierarchy.info type).methods.map Method.name)
          (features.filterMap Feature.method?)).map hierarchy.declaredMethod := by
  induction features generalizing hierarchy with
  | nil => exact ⟨(List.append_nil _).symm, (List.append_nil _).symm⟩
  | cons feature features ih =>
      have alike := defineFeature_alike type hierarchy feature
      obtain ⟨attributes, methods⟩ := ih (defineFeature type hierarchy feature).1 (alike.size.symm ▸ known)
      rw [alike.declaredAttribute] at attributes
      rw [alike.declaredMethod] at methods
      refine ⟨attributes.trans ?_, methods.trans ?_⟩
      · rcases feature with decl | decl
        · rw [defineFeature_attribute known, show (Feature.attribute decl :: features).filterMap
            Feature.attribute? = decl :: features.filterMap Feature.attribute? from rfl, introduced]
          split
          · rfl
          · rw [List.map_append, List.append_assoc]
            rfl
        · rw [defineFeature_method known]
          split <;> rfl
      · rcases feature with decl | decl
        · rw [defineFeature_attribute known]
          split <;> rfl
        · rw [defineFeature_method known, show (Feature.method decl :: features).filterMap
            Feature.method? = decl :: features.filterMap Feature.method? from rfl, introduced]
          split
          · rfl
          · rw [List.map_append, List.append_assoc]
            rfl

theorem defineFeatures_info_of_ne {class' : ClassDecl × TypeId} (apart : other ≠ class'.2) :
    (hierarchy.defineFeatures class').1.info other = hierarchy.info other :=
  reportEach_keeps (p := fun state : Hierarchy => state.info other = hierarchy.info other)
    (fun _ feature same => (defineFeature_info_of_ne apart feature).trans same) rfl class'.1.features

/-! ### Features of all classes -/

theorem defineAllFeatures_info_of_not_mem {typed : List (ClassDecl × TypeId)}
    (absent : other ∉ typed.map Prod.snd) :
    (reportEach defineFeatures hierarchy typed).1.info other = hierarchy.info other :=
  reportEach_keeps_of_mem (p := fun state : Hierarchy => state.info other = hierarchy.info other)
    (fun _ class' member same => (defineFeatures_info_of_ne fun isClass : other = class'.2 =>
      absent (isClass ▸ List.mem_map_of_mem member)).trans same) rfl

theorem defineAllFeatures_info (hierarchy : Hierarchy) {typed : List (ClassDecl × TypeId)} (apart : (typed.map Prod.snd).Nodup)
    (known : ∀ class' ∈ typed, class'.2.index < hierarchy.types.size)
    (none : ∀ class' ∈ typed, (hierarchy.info class'.2).attributes = [] ∧
      (hierarchy.info class'.2).methods = []) :
    ∀ class' ∈ typed, ((reportEach defineFeatures hierarchy typed).1.info class'.2).attributes =
        class'.1.attributes.map hierarchy.declaredAttribute ∧
      ((reportEach defineFeatures hierarchy typed).1.info class'.2).methods =
        class'.1.methods.map hierarchy.declaredMethod := by
  induction typed generalizing hierarchy with
  | nil => exact nofun
  | cons first typed ih =>
      obtain ⟨isApart, apart⟩ := List.nodup_cons.mp apart
      obtain ⟨isKnown, known⟩ := List.forall_mem_cons.mp known
      obtain ⟨isNone, none⟩ := List.forall_mem_cons.mp none
      have alike : (hierarchy.defineFeatures first).1.Alike hierarchy :=
        defineAllFeatures_alike hierarchy [first]
      intro class' member
      rcases List.mem_cons.mp member with rfl | member
      · rw [reportEach]
        dsimp only
        rw [defineAllFeatures_info_of_not_mem isApart]
        have defined := defineFeatures_info hierarchy class'.1.features isKnown
        rw [isNone.1, isNone.2] at defined
        exact defined
      · have others := ih (hierarchy.defineFeatures first).1 apart
          (fun class' member => alike.size.symm ▸ known class' member)
          (fun class' member => by
            rw [defineFeatures_info_of_ne fun same => isApart (same ▸ List.mem_map_of_mem member)]
            exact none class' member) class' member
        rwa [alike.declaredAttribute, alike.declaredMethod] at others

/-! ### Built-in classes -/

/-- Built-in methods go to built-in classes, and what those are given does not depend on other classes. -/
theorem defineBuiltins_info (hierarchy : Hierarchy) :
    (∀ type : TypeId, 8 ≤ type.index → hierarchy.defineBuiltins.info type = hierarchy.info type) ∧
      (8 ≤ hierarchy.types.size → (∀ type : TypeId, type.index < 8 →
        hierarchy.info type = initial.info type) →
      ∀ type : TypeId, type.index < 8 → hierarchy.defineBuiltins.info type = initial.defineBuiltins.info type) := by
  have small : ∀ builtin ∈ builtinMethods, builtin.1.index < 8 := by decide
  have enough : 8 ≤ initial.types.size := by decide
  unfold defineBuiltins
  generalize initial = start at enough ⊢
  generalize builtinMethods = builtins at small
  induction builtins generalizing hierarchy start with
  | nil => exact ⟨fun _ _ => rfl, fun _ same => same⟩
  | cons builtin builtins ih =>
      obtain ⟨isSmall, small⟩ := List.forall_mem_cons.mp small
      obtain ⟨large, first⟩ := ih (hierarchy.update builtin.1 fun info => info.putMethod builtin.2)
        (start.update builtin.1 fun info => info.putMethod builtin.2) (by rwa [size_update]) small
      refine ⟨fun type isLarge => (large type isLarge).trans (info_update_of_ne ?_),
        fun enough' same => first (by rwa [size_update]) fun type isSmall' => ?_⟩
      · rintro rfl
        exact absurd isSmall (Nat.not_lt.mpr isLarge)
      · have known : type.index < hierarchy.types.size ∧ type.index < start.types.size := by omega
        simp only [info_update_eq, same type isSmall', known.1, known.2]

section

variable {program : Program} {types : ClassTypes}
  (numbered : (program.typed types).map Prod.snd =
    (List.range' 8 (hierarchy.types.size - 8)).map TypeId.mk)
include numbered

/-- Linking and breaking leave features alone, and built-in classes altogether. -/
theorem linked_info :
    (∀ type, ((reportEach breakCycle (reportEach linkParent hierarchy.defineBuiltins
        (program.typed types)).1 (program.typed types)).1.info type).attributes =
          (hierarchy.defineBuiltins.info type).attributes ∧
      ((reportEach breakCycle (reportEach linkParent hierarchy.defineBuiltins
        (program.typed types)).1 (program.typed types)).1.info type).methods =
          (hierarchy.defineBuiltins.info type).methods) ∧
    ∀ type : TypeId, type.index < 8 → (reportEach breakCycle (reportEach linkParent hierarchy.defineBuiltins
      (program.typed types)).1 (program.typed types)).1.info type = hierarchy.defineBuiltins.info type := by
  let Keeps (state : Hierarchy) : Prop :=
    (∀ type, (state.info type).attributes = (hierarchy.defineBuiltins.info type).attributes ∧
      (state.info type).methods = (hierarchy.defineBuiltins.info type).methods) ∧
    ∀ type : TypeId, type.index < 8 → state.info type = hierarchy.defineBuiltins.info type
  have setParent (state : Hierarchy) {class' : ClassDecl × TypeId} (member : class' ∈ program.typed types)
      (parent : TypeId) (keeps : Keeps state) : Keeps (state.setParent class'.2 parent) := by
    have large := (mem_numbered numbered member).1
    refine ⟨fun type => ?_, fun type small => ?_⟩
    · rw [Hierarchy.setParent, info_update_eq]
      split
      · exact keeps.1 type
      · exact keeps.1 type
    · refine (info_update_of_ne fun same => ?_).trans (keeps.2 type small)
      rw [same] at small
      exact absurd small (Nat.not_lt.mpr large)
  have linked : Keeps (reportEach linkParent hierarchy.defineBuiltins (program.typed types)).1 :=
    reportEach_keeps_of_mem (p := Keeps) (fun state class' member => setParent state member _)
      ⟨fun _ => ⟨rfl, rfl⟩, fun _ _ => rfl⟩
  exact reportEach_keeps_of_mem (p := Keeps) (fun state class' member keeps => by
    unfold breakCycle
    dsimp only
    split
    · exact setParent state member _ keeps
    · exact keeps) linked

/-- When features are defined, no class has any. -/
theorem Collected.linked_none (collected : hierarchy.Collected) : ∀ class' ∈ program.typed types,
    ((reportEach breakCycle (reportEach linkParent hierarchy.defineBuiltins (program.typed types)).1
      (program.typed types)).1.info class'.2).attributes = [] ∧
    ((reportEach breakCycle (reportEach linkParent hierarchy.defineBuiltins (program.typed types)).1
      (program.typed types)).1.info class'.2).methods = [] := by
  intro class' member
  obtain ⟨sameFeatures, _⟩ := linked_info numbered
  obtain ⟨large, _⟩ := mem_numbered numbered member
  rw [(sameFeatures _).1, (sameFeatures _).2, (defineBuiltins_info hierarchy).1 _ large]
  exact collected.featureless class'.2

/-- The features of a class are the first declarations of their names. -/
theorem Collected.build_features (collected : hierarchy.Collected) : ∀ class' ∈ program.typed types,
    ((hierarchy.build program types).1.info class'.2).attributes =
        class'.1.attributes.map (hierarchy.build program types).1.declaredAttribute ∧
      ((hierarchy.build program types).1.info class'.2).methods =
        class'.1.methods.map (hierarchy.build program types).1.declaredMethod := by
  have alike := defineAllFeatures_alike (reportEach breakCycle (reportEach linkParent
    hierarchy.defineBuiltins (program.typed types)).1 (program.typed types)).1 (program.typed types)
  rw [show (hierarchy.build program types).1.declaredAttribute = _ from alike.declaredAttribute,
    show (hierarchy.build program types).1.declaredMethod = _ from alike.declaredMethod]
  refine defineAllFeatures_info _ (nodup_numbered numbered) (fun class' member => ?_)
    (collected.linked_none numbered)
  rw [size_breakCycles, size_linkParents, (defineBuiltins_alike hierarchy).size]
  exact (mem_numbered numbered member).2

/-- Built-in classes are the same for all programs. -/
theorem Collected.build_builtin (collected : hierarchy.Collected) (small : type.index < 8) :
    (hierarchy.build program types).1.info type = initial.defineBuiltins.info type := by
  refine (defineAllFeatures_info_of_not_mem fun member => ?_).trans
    (((linked_info numbered).2 type small).trans
      ((defineBuiltins_info hierarchy).2 collected.builtins collected.first type small))
  obtain ⟨class', isClass, rfl⟩ := List.mem_map.mp member
  exact absurd small (Nat.not_lt.mpr (mem_numbered numbered isClass).1)

end

end Hierarchy

end CoolLang
