import CoolLang.Proofs.Analysis.Checked
import CoolLang.Proofs.Hierarchy.Overriding
import CoolLang.Proofs.Inference.Frame
import CoolLang.Proofs.Program.Shape
import CoolLang.Proofs.Typing.Classes

/-!
Variables and what they stand for. Checking gives each parameter of a method a variable that is declared as
the parameter is in the signature, and each attribute of a class one that is declared as the attribute is, in
the same order. So inference, where it goes by places, brings together two views of one declaration
(`Analysis.visits_paired`).
-/

namespace CoolLang

namespace Inference

namespace Visit

/-- The scope of a visit, with what is declared there. -/
def declared (hierarchy : Hierarchy) (all : ClassTypes) : Visit → ScopeId × List Variable
  | .feature owner _ scope part => (scope, Surroundings.featureVariables ⟨hierarchy, owner, ""⟩ part)
  | .record owner scope => (scope, Site.attributes hierarchy all owner)

/-- Whether a visit is of a class of a program that has a type, or of one of its features. -/
def Of (program : Program) (types : ClassTypes) : Visit → Prop
  | .feature owner _ _ part => ∃ decl, (decl, owner) ∈ program.typed types ∧ part ∈ decl.features
  | .record owner _ => ∃ decl, (decl, owner) ∈ program.typed types

def untyped : Visit → Visit
  | .feature owner around scope part => .feature owner around scope part.untyped
  | .record owner scope => .record owner scope

/-- Static types do not matter. -/
theorem paired_untyped {hierarchy : Hierarchy} {tree : ScopeTree} {visit : Visit} :
    visit.untyped.Paired hierarchy tree ↔ visit.Paired hierarchy tree := by
  rcases visit with ⟨_, _, _, _ | _⟩ | _ <;> exact Iff.rfl

end Visit

variable {tree : ScopeTree} {types : ClassTypes}

theorem map_untyped_featureVisits (owner : TypeId) (around : ScopeId) (place : Nat) (features : List Feature) :
    (featureVisits tree owner around place features).map Visit.untyped =
      featureVisits tree owner around place (features.map Feature.untyped) := by
  induction features generalizing place with
  | nil => rfl
  | cons feature features ih => exact congrArg _ (ih (place + 1))

theorem map_untyped_classVisits (decls : List ClassDecl) (types : ClassTypes) (scopes : List ScopeId) :
    (classVisits tree decls types scopes).map Visit.untyped =
      classVisits tree (decls.map ClassDecl.untyped) types scopes := by
  induction decls generalizing types scopes with
  | nil => rfl
  | cons decl decls ih =>
      rcases types with _ | ⟨_ | type, types⟩
      · rfl
      · exact ih types scopes
      · rcases scopes with _ | ⟨scope, scopes⟩
        · rfl
        · rw [classVisits, List.map_append, map_untyped_featureVisits, List.map_cons, ih]
          rfl

/-- Programs that differ in static types only are visited alike. -/
theorem visits_of_untyped {one two : Program} (same : one.untyped = two.untyped) :
    (visits one types tree).map Visit.untyped = (visits two types tree).map Visit.untyped := by
  have classes := congrArg Program.classes same
  rw [visits, map_untyped_classVisits, visits, map_untyped_classVisits]
  exact congrArg (fun decls => classVisits tree decls types (tree.children ScopeTree.root)) classes

theorem exists_visit_of_untyped {one two : Program} {visit : Visit} (same : one.untyped = two.untyped)
    (member : visit ∈ visits one types tree) : ∃ other ∈ visits two types tree, other.untyped = visit.untyped := by
  have isVisit := List.mem_map_of_mem (f := Visit.untyped) member
  rw [visits_of_untyped same] at isVisit
  exact List.mem_map.mp isVisit

/-- Where visits lead does not depend on what is known of variables. -/
theorem visits_congr {one two : ScopeTree} (nodes : one.nodes = two.nodes) (program : Program) :
    visits program types one = visits program types two := by
  have children := ScopeTree.children_of_nodes nodes
  have inFeatures (owner : TypeId) (around : ScopeId) (place : Nat) (features : List Feature) :
      featureVisits one owner around place features = featureVisits two owner around place features := by
    induction features generalizing place with
    | nil => rfl
    | cons feature features ih =>
        rw [featureVisits, featureVisits, ih, ScopeTree.child, ScopeTree.child, children]
  rw [visits, visits, children]
  generalize two.children ScopeTree.root = scopes
  generalize program.classes = decls
  induction decls generalizing types scopes with
  | nil => rfl
  | cons decl decls ih =>
      rcases types with _ | ⟨_ | type, types⟩
      · rfl
      · exact ih scopes
      · rcases scopes with _ | ⟨scope, scopes⟩
        · rfl
        · rw [classVisits, classVisits, inFeatures, ih]

theorem of_featureVisits (hierarchy : Hierarchy) {owner : TypeId} {around : ScopeId} {place : Nat}
    {features : List Feature} {visit : Visit} (all : ClassTypes)
    (member : visit ∈ featureVisits tree owner around place features) :
    visit.declared hierarchy all ∈
        Surroundings.declarationsFeatures ⟨hierarchy, owner, ""⟩ tree around place features ∧
      ∃ scope, ∃ part ∈ features, visit = .feature owner around scope part := by
  induction features generalizing place with
  | nil => cases member
  | cons feature features ih =>
      rcases List.mem_cons.mp member with rfl | member
      · exact ⟨List.mem_append_left _ List.mem_cons_self, _, feature, List.mem_cons_self, rfl⟩
      · obtain ⟨isDeclared, scope, part, isPart, same⟩ := ih member
        exact ⟨List.mem_append_right _ isDeclared, scope, part, List.mem_cons_of_mem _ isPart, same⟩

/-- A visit leads to a scope in which its class or feature has declared its variables. -/
theorem of_classVisits (hierarchy : Hierarchy) {decls : List ClassDecl} {scopes : List ScopeId} {visit : Visit}
    (all : ClassTypes) (member : visit ∈ classVisits tree decls types scopes) :
    visit.declared hierarchy all ∈ declarationsClasses hierarchy all tree decls types scopes ∧
      visit.Of ⟨decls⟩ types := by
  induction decls generalizing types scopes with
  | nil => cases member
  | cons decl decls ih =>
      rcases types with _ | ⟨_ | type, types⟩
      · cases member
      · exact ih member
      · rcases scopes with _ | ⟨scope, scopes⟩
        · cases member
        · have isTyped : (decl, type) ∈ Program.typed ⟨decl :: decls⟩ (some type :: types) := List.mem_cons_self
          rcases List.mem_append.mp member with inside | later
          · obtain ⟨isDeclared, inner, part, isPart, rfl⟩ := of_featureVisits hierarchy all inside
            exact ⟨List.mem_cons_of_mem _ (List.mem_append_left _ isDeclared), decl, isTyped, isPart⟩
          · rcases List.mem_cons.mp later with rfl | later
            · exact ⟨List.mem_cons_self, decl, isTyped⟩
            · obtain ⟨isDeclared, isOf⟩ := ih later
              refine ⟨List.mem_cons_of_mem _ (List.mem_append_right _ isDeclared), ?_⟩
              rcases visit with ⟨owner, _, _, part⟩ | ⟨owner, _⟩
              · obtain ⟨class', isClass, isPart⟩ := isOf
                exact ⟨class', List.mem_cons_of_mem _ isClass, isPart⟩
              · obtain ⟨class', isClass⟩ := isOf
                exact ⟨class', List.mem_cons_of_mem _ isClass⟩

end Inference

/-! ### What is declared -/

namespace Hierarchy

variable {hierarchy : Hierarchy}

/-- A parameter and its variable are declared alike. -/
theorem resolveParam_eq (hierarchy : Hierarchy) (current : TypeId) (feature : String) (param : Param) :
    (hierarchy.resolveParam param).1 =
      (param.name.name, Surroundings.paramType ⟨hierarchy, current, feature⟩ param) := by
  unfold resolveParam resolve get Surroundings.paramType
  cases hierarchy.find? param.type.name with
  | none => rfl
  | some type =>
      dsimp only
      split <;> rfl

theorem params_declaredMethod (hierarchy : Hierarchy) (current : TypeId) (decl : MethodDecl) :
    (hierarchy.declaredMethod decl).params =
      (Surroundings.featureVariables ⟨hierarchy, current, ""⟩ (.method decl)).drop 1 := by
  change (decl.params.map fun param => (hierarchy.resolveParam param).1).map _ = decl.params.map _
  rw [List.map_map]
  exact List.map_congr_left fun param _ => by
    rw [Function.comp_apply, hierarchy.resolveParam_eq current ""]

theorem ancestors_head {type : TypeId} (known : type.index < hierarchy.types.size) :
    ∃ above, hierarchy.ancestors type = type :: above := by
  obtain ⟨size, isSize⟩ := Nat.exists_eq_succ_of_ne_zero (Nat.ne_of_gt (Nat.zero_lt_of_lt known))
  exact ⟨hierarchy.line size (hierarchy.parent? type), by rw [ancestors, isSize, line]⟩

end Hierarchy

namespace Analysis

open Inference

/-- Where a class has a method at some place, that is the method that is written there. -/
theorem declared_of_methodAt? {program : Program} {class' : ClassDecl × TypeId} {decl : MethodDecl}
    {method : Method} (member : class' ∈ program.typed (checked program).types)
    (places : (class'.1.features.map Feature.position).Nodup) (isFeature : .method decl ∈ class'.1.features)
    (found : ((checked program).hierarchy.info class'.2).methodAt? decl.name.name decl.name.position =
      some method) : method = (checked program).hierarchy.declaredMethod decl := by
  obtain ⟨collected, _⟩ := Hierarchy.collect_collected program
  have numbered := Hierarchy.collect_numbered program
  obtain ⟨found, isHere⟩ := Option.filter_eq_some_iff.mp found
  have isMethod := List.mem_of_find?_eq_some found
  have methods : ((checked program).hierarchy.info class'.2).methods =
      class'.1.methods.map (checked program).hierarchy.declaredMethod :=
    (collected.build_features numbered class' member).2
  rw [methods] at isMethod
  obtain ⟨other, isOther, rfl⟩ := List.mem_map.mp isMethod
  have same : Feature.method other = .method decl :=
    List.inj_on_of_nodup_map places (Hierarchy.mem_features_of_mem_methods isOther) isFeature (eq_of_beq isHere)
  cases same
  rfl

/-- The attribute of a class that is declared at some place is the one that is written there. -/
theorem declared_of_attribute {program : Program} {class' : ClassDecl × TypeId} {decl : AttributeDecl}
    {attr : Attribute} (member : class' ∈ program.typed (checked program).types)
    (places : (class'.1.features.map Feature.position).Nodup) (isFeature : .attribute decl ∈ class'.1.features)
    (isAttribute : attr ∈ ((checked program).hierarchy.info class'.2).attributes)
    (isHere : attr.position = decl.name.position) : attr = (checked program).hierarchy.declaredAttribute decl := by
  obtain ⟨collected, _⟩ := Hierarchy.collect_collected program
  have attributes : ((checked program).hierarchy.info class'.2).attributes =
      class'.1.attributes.map (checked program).hierarchy.declaredAttribute :=
    (collected.build_features (Hierarchy.collect_numbered program) class' member).1
  rw [attributes] at isAttribute
  obtain ⟨other, isOther, rfl⟩ := List.mem_map.mp isAttribute
  have same : Feature.attribute other = .attribute decl :=
    List.inj_on_of_nodup_map places (Hierarchy.mem_features_of_mem_attributes isOther) isFeature isHere
  cases same
  rfl

/-- Variables are declared as what they stand for. -/
theorem visits_paired {program : Program}
    (places : ∀ decl ∈ program.classes, (decl.features.map Feature.position).Nodup) :
    ∀ visit ∈ visits program (checked program).types (checked program).tree,
      visit.Paired (checked program).hierarchy (checked program).tree := by
  intro visit member
  have declared : ∀ entry ∈ program.declarations (checked program).types (checked program).hierarchy
      (checked program).tree, (checked program).tree.slots entry.1 = entry.2 :=
    (program.check_surveyed (checked program).types (checked program).hierarchy).2.2.2
  obtain ⟨isDeclared, isOf⟩ := of_classVisits (checked program).hierarchy (checked program).types member
  have slots := declared _ isDeclared
  rcases visit with ⟨owner, around, scope, decl | decl⟩ | ⟨owner, scope⟩
  · trivial
  · obtain ⟨class', isTyped, isFeature⟩ := isOf
    intro method found
    have same := declared_of_methodAt? isTyped (places class' (Hierarchy.mem_classes_of_mem_typed isTyped))
      isFeature found
    rw [same, Hierarchy.params_declaredMethod _ owner]
    exact congrArg (List.drop 1) slots
  · obtain ⟨class', isTyped⟩ := isOf
    have isType : some owner ∈ (checked program).types := Hierarchy.mem_types_of_mem_typed isTyped
    obtain ⟨above, ancestors⟩ := Hierarchy.ancestors_head ((checked_prepared program).areClasses owner isType).known
    rw [Visit.declared] at slots
    rw [Visit.Paired, slots, Site.attributes, ancestors, List.flatMap_cons, if_pos isType]
    exact List.prefix_append _ _

end Analysis

end CoolLang
