import CoolLang.Proofs.Analysis.Frame
import CoolLang.Proofs.Hierarchy.Order
import CoolLang.Proofs.Hierarchy.Overriding
import CoolLang.Proofs.Typing.Correspondence

/-!
The order of declarations. What is known about a program before inference does not depend on the order in which it
declares its classes, if these have distinct names and the parents that they declare form no cycle: types are
numbered otherwise, and diagnostics come in another order (`Analysis.checked_perm`).
-/

namespace CoolLang

open Relation

variable {rename : TypeId → TypeId}

namespace Hierarchy

/-- Typing learns the same under other numbers. -/
theorem Renames.answers {one two : Hierarchy} (renames : Renames rename one two) : Answers rename one two where
  toRenumbers := renames.toRenumbers
  find? := renames.find?
  name := renames.name
  ancestors := renames.ancestors
  attributes type := by
    rw [renames.info]
    exact List.forall₂_map_right_iff.mpr (List.forall₂_same.mpr fun attr _ => ⟨rfl, rfl, rfl⟩)
  methods type := by
    rw [renames.info]
    refine List.forall₂_map_right_iff.mpr (List.forall₂_same.mpr fun method _ => ⟨rfl, rfl, ?_, rfl, rfl⟩)
    exact List.forall₂_map_right_iff.mpr (List.forall₂_same.mpr fun param _ => ⟨rfl, rfl⟩)

end Hierarchy

/-! ### Typing class by class -/

namespace Site

/-- Types a class on its own, if it has a type. -/
def surveyEntry (hierarchy : Hierarchy) (all : ClassTypes) :
    ClassDecl × Option TypeId → Survey (ClassDecl × Option TypeId)
  | (decl, none) => pure (decl, none)
  | (decl, some type) => do
      let decl ← surveyClass (ofClass hierarchy none all type 0) decl
      return (decl, some type)

/-- Where there is no tree, no class depends on its place among the others. -/
theorem surveyClasses_entries (hierarchy : Hierarchy) (all : ClassTypes) (place : Nat) {decls : List ClassDecl}
    {types : ClassTypes} (fits : types.length = decls.length) :
    (surveyClasses hierarchy none all place decls types).value.zip types =
        (decls.zip types).map (fun entry => (surveyEntry hierarchy all entry).value) ∧
      (surveyClasses hierarchy none all place decls types).diagnostics hierarchy =
        (decls.zip types).flatMap fun entry => (surveyEntry hierarchy all entry).diagnostics hierarchy := by
  induction decls generalizing types place with
  | nil =>
      obtain rfl := List.length_eq_zero_iff.mp fits
      exact ⟨rfl, rfl⟩
  | cons decl decls ih =>
      obtain _ | ⟨type, types⟩ := types
      · cases fits
      rcases type with _ | type
      · obtain ⟨values, found⟩ := ih place (Nat.succ.inj fits)
        refine ⟨congrArg ((decl, none) :: ·) values, ?_⟩
        rw [surveyClasses, Survey.diagnostics_bind, found]
        exact List.append_nil _
      · obtain ⟨values, found⟩ := ih (place + 1) (Nat.succ.inj fits)
        refine ⟨congrArg (((surveyClass (ofClass hierarchy none all type 0) decl).value, some type) :: ·) values, ?_⟩
        rw [surveyClasses, Survey.diagnostics_bind, Survey.diagnostics_bind, found, List.zip_cons_cons,
          List.flatMap_cons, surveyEntry, Survey.diagnostics_bind]
        exact congrArg₂ (· ++ ·) (List.append_nil _).symm (List.append_nil _)

theorem surveyEntry_renames {one two : Hierarchy} {all all' : ClassTypes} (answers : Hierarchy.Answers rename one two)
    (listed : ∀ owner, some (rename owner) ∈ all' ↔ some owner ∈ all) (entry : ClassDecl × Option TypeId) :
    Survey.Renames one two (ClassDecl.retypeWith rename) (surveyEntry one all entry)
      (surveyEntry two all' (Prod.map id (Option.map rename) entry)) := by
  obtain ⟨decl, _ | type⟩ := entry
  · exact .pure rfl
  · exact ((matches_ofClass answers listed .none type 0).surveyClass decl).bind fun _ => .pure rfl

end Site

/-! ### Collecting in another order -/

namespace Hierarchy

variable {program other : Program}

theorem initial_enough : 8 ≤ initial.types.size := by
  decide

/-- A cycle of parents that classes get for their declarations is one of the declarations. -/
theorem declaredParent_acyclic (acyclic : ∀ name, ¬TransGen program.DeclaresParent name name) (type : TypeId) :
    ¬TransGen ((initial.collect program).1.DeclaredParent (program.typed (initial.collect program).2.1)) type type := by
  intro cycle
  have found := (collect_introduces program).2
  have numbered := collect_numbered program
  have named : SameCycle (fun child parent => program.DeclaresParent ((initial.collect program).1.name child)
      ((initial.collect program).1.name parent)) type type := by
    refine SameCycle.of_continuing ⟨cycle, cycle⟩ fun child parent above step next => ?_
    obtain ⟨decl, faults, member, declares⟩ := step
    obtain ⟨_, _, isClass, _⟩ := next
    have notObject : parent ≠ .object := by
      rintro rfl
      exact absurd (show 8 ≤ TypeId.object.index from (mem_numbered numbered isClass).1) (by decide)
    have isChild := (find?_known (found _ member)).2.2
    rw [isChild]
    cases declares with
    | omitted => exact absurd rfl notObject
    | unknown => exact absurd rfl notObject
    | refused => exact absurd rfl notObject
    | accepted isWritten isFound _ =>
        refine ⟨decl, mem_classes_of_mem_typed member, rfl, ?_⟩
        rw [isWritten, (find?_known isFound).2.2]
        rfl
  exact acyclic _ (named.1.lift _ fun _ _ step => step)

/-- Of classes with distinct names those have a type that have none of the names that are taken. -/
theorem typed_collect (apart : (program.classes.map ClassDecl.typeName).Nodup) :
    program.typed (initial.collect program).2.1 =
      (program.classes.filter fun decl => decide (decl.typeName ∉ initialNames)).map fun decl =>
        (decl, ((initial.collect program).1.find? decl.typeName).getD default) := by
  obtain ⟨same, found⟩ := collect_introduces program
  rw [introduced_of_nodup initialNames apart] at same
  rw [← same, List.map_map]
  refine (List.map_id _).symm.trans (List.map_congr_left fun class' member => ?_)
  exact congrArg (class'.1, ·) (congrArg (Option.getD · default) (found class' member)).symm

variable (apart : (program.classes.map ClassDecl.typeName).Nodup) (perm : program.classes.Perm other.classes)
include perm

theorem isSome_find?_collect_perm (name : String) :
    ((initial.collect other).1.find? name).isSome ↔ ((initial.collect program).1.find? name).isSome := by
  refine (isSome_find?_collectAll other.classes initial_enough name).trans
    (Iff.trans ?_ (isSome_find?_collectAll program.classes initial_enough name).symm)
  rw [(perm.map ClassDecl.typeName).mem_iff]

include apart

theorem size_collect_perm : (initial.collect other).1.types.size = (initial.collect program).1.types.size := by
  have apart' : (other.classes.map ClassDecl.typeName).Nodup := (perm.map _).nodup_iff.mp apart
  have counted (program : Program) : (program.typed (initial.collect program).2.1).length =
      (initial.collect program).1.types.size - 8 := by
    have lengths := congrArg List.length (collect_numbered program)
    rwa [List.length_map, List.length_map, List.length_range'] at lengths
  have same := counted other
  rw [typed_collect apart', List.length_map, ← (perm.filter _).length_eq, ← List.length_map, ← typed_collect apart,
    counted] at same
  have enough := (collect_collected program).1.builtins
  have enough' := (collect_collected other).1.builtins
  omega

/-- The same classes in another order get the same types under other numbers. -/
theorem collect_renames : Renames (renumber (initial.collect program).1 (initial.collect other).1)
    (initial.collect program).1 (initial.collect other).1 :=
  (collect_collected program).1.renames (collect_collected other).1 (size_collect_perm apart perm)
    (isSome_find?_collect_perm perm)

theorem typed_perm : ((program.typed (initial.collect program).2.1).map
    (Prod.map id (renumber (initial.collect program).1 (initial.collect other).1))).Perm
      (other.typed (initial.collect other).2.1) := by
  have renames := collect_renames apart perm
  have found := (collect_introduces program).2
  rw [typed_collect ((perm.map _).nodup_iff.mp apart)]
  refine List.Perm.trans (List.Perm.of_eq ?_) ((perm.filter _).map _)
  have same := typed_collect apart
  have told : ∀ class' ∈ program.typed (initial.collect program).2.1,
      Prod.map id (renumber (initial.collect program).1 (initial.collect other).1) class' =
        (class'.1, ((initial.collect other).1.find? class'.1.typeName).getD default) := fun class' member => by
    rw [renames.find?, show (initial.collect program).1.find? class'.1.typeName = _ from found class' member]
    rfl
  rw [List.map_congr_left told, same, List.map_map]
  rfl

omit apart in
theorem declaresParent_perm : other.DeclaresParent = program.DeclaresParent := by
  funext child parent
  exact propext (exists_congr fun decl => and_congr_left fun _ => perm.mem_iff.symm)

variable (acyclic : ∀ name, ¬TransGen program.DeclaresParent name name)
include acyclic

/-- The hierarchy that is built differs in the numbers of the classes only. -/
theorem build_collect_renames : Renames (renumber (initial.collect program).1 (initial.collect other).1)
    ((initial.collect program).1.build program (initial.collect program).2.1).1
    ((initial.collect other).1.build other (initial.collect other).2.1).1 :=
  build_renames (collect_renames apart perm) (typed_perm apart perm) (collect_collected program).1
    (collect_collected other).1 (collect_numbered program) (collect_numbered other) (declaredParent_acyclic acyclic)
    (declaredParent_acyclic (declaresParent_perm perm ▸ acyclic))

theorem build_collect_perm :
    ((initial.collect other).1.build other (initial.collect other).2.1).2.Perm
      ((initial.collect program).1.build program (initial.collect program).2.1).2 := by
  have named : (program.typed (initial.collect program).2.1).map (fun class' => class'.1.typeName) =
      (program.classes.filter fun decl => decide (decl.typeName ∉ initialNames)).map ClassDecl.typeName := by
    rw [typed_collect apart, List.map_map]
    rfl
  exact build_perm (collect_renames apart perm) (typed_perm apart perm) (collect_collected program).1
    (collect_collected other).1 (collect_numbered program) (collect_numbered other) (declaredParent_acyclic acyclic)
    (declaredParent_acyclic (declaresParent_perm perm ▸ acyclic)) (named ▸ apart.sublist (List.filter_sublist.map _))

end Hierarchy

namespace Analysis

variable {program other : Program}

theorem length_types_checked (program : Program) : (checked program).types.length = program.classes.length :=
  Hierarchy.length_collect .initial program

/-- The type of a class with a name of its own. -/
theorem types_checked (apart : (program.classes.map ClassDecl.typeName).Nodup) :
    (checked program).types = program.classes.map fun decl =>
      if (Hierarchy.initial.find? decl.typeName).isSome then none
      else (Hierarchy.initial.collect program).1.find? decl.typeName :=
  Hierarchy.types_collectAll Hierarchy.initial_enough apart

/-- What checking finds out, class by class. -/
theorem checked_entries (program : Program) :
    (checked program).program.classes.zip (checked program).types =
        (program.classes.zip (checked program).types).map (fun entry =>
          (Site.surveyEntry (checked program).hierarchy (checked program).types entry).value) ∧
      (ofProgram program).collect.1.build.1.check.2 =
        (program.classes.zip (checked program).types).flatMap fun entry =>
          (Site.surveyEntry (checked program).hierarchy (checked program).types entry).diagnostics
            (checked program).hierarchy := by
  obtain ⟨value, found, _⟩ := checked_surveyed program
  obtain ⟨values, reports⟩ := Site.surveyClasses_entries (checked program).hierarchy (checked program).types 0
    (length_types_checked program)
  refine ⟨?_, ?_⟩
  · rw [value]
    exact values
  · exact found.trans ((Survey.diagnostics_map _ _ _).trans reports)

section

variable (apart : (program.classes.map ClassDecl.typeName).Nodup) (perm : program.classes.Perm other.classes)
include apart perm

/-- The same classes with their types, under other numbers. -/
theorem zip_types_perm : ((program.classes.zip (checked program).types).map (Prod.map id (Option.map
    (Hierarchy.renumber (Hierarchy.initial.collect program).1 (Hierarchy.initial.collect other).1)))).Perm
      (other.classes.zip (checked other).types) := by
  have renames := Hierarchy.collect_renames apart perm
  rw [types_checked apart, types_checked ((perm.map _).nodup_iff.mp apart), ← List.map_prod_left_eq_zip,
    ← List.map_prod_left_eq_zip, List.map_map]
  refine List.Perm.trans (List.Perm.of_eq (List.map_congr_left fun decl _ => congrArg (decl, ·) ?_)) (perm.map _)
  rw [renames.find?]
  split <;> rfl

variable (acyclic : ∀ name, ¬TransGen program.DeclaresParent name name)
include acyclic

theorem declarationFaults_perm : (declarationFaults program).Perm (declarationFaults other) := by
  have collected (program : Program) (apart : (program.classes.map ClassDecl.typeName).Nodup) :
      (ofProgram program).collect.2 = program.classes.flatMap Hierarchy.initial.redefinition :=
    Hierarchy.faults_collectAll Hierarchy.initial_enough apart
  refine List.Perm.append ?_ (Hierarchy.build_collect_perm apart perm acyclic).symm
  rw [collected program apart, collected other ((perm.map _).nodup_iff.mp apart)]
  exact perm.flatMap_right _

/-- What collecting, building and checking find out about a program does not depend on the order in which it declares
its classes, but for the numbers of types and the order of diagnostics. -/
theorem checked_perm : ∃ rename, Hierarchy.Renames rename (checked program).hierarchy (checked other).hierarchy ∧
    (((checked program).program.classes.zip (checked program).types).map (ClassDecl.retypeWith rename)).Perm
      ((checked other).program.classes.zip (checked other).types) ∧
    (declarationFaults program ++ (ofProgram program).collect.1.build.1.check.2).Perm
      (declarationFaults other ++ (ofProgram other).collect.1.build.1.check.2) := by
  obtain ⟨rename, renames, entries⟩ : ∃ rename,
      Hierarchy.Renames rename (checked program).hierarchy (checked other).hierarchy ∧
        ((program.classes.zip (checked program).types).map (Prod.map id (Option.map rename))).Perm
          (other.classes.zip (checked other).types) :=
    ⟨_, Hierarchy.build_collect_renames apart perm acyclic, zip_types_perm apart perm⟩
  have types : ((checked program).types.map (Option.map rename)).Perm (checked other).types := by
    have second := entries.map Prod.snd
    rwa [List.map_snd_zip (length_types_checked other).le, List.map_map,
      show Prod.snd ∘ Prod.map id (Option.map rename) = Option.map rename ∘ Prod.snd from rfl, ← List.map_map,
      List.map_snd_zip (length_types_checked program).le] at second
  have listed (owner : TypeId) :
      some (rename owner) ∈ (checked other).types ↔ some owner ∈ (checked program).types := by
    rw [← types.mem_iff]
    exact List.mem_map_of_injective (Option.map_injective renames.injective) (a := some owner)
  have told (entry : ClassDecl × Option TypeId) := Site.surveyEntry_renames renames.answers listed entry
  obtain ⟨values, reports⟩ := checked_entries program
  obtain ⟨values', reports'⟩ := checked_entries other
  refine ⟨rename, renames, ?_, (declarationFaults_perm apart perm acyclic).append ?_⟩
  · rw [values, values', List.map_map]
    refine List.Perm.trans (List.Perm.of_eq ?_) (entries.map _)
    rw [List.map_map]
    exact List.map_congr_left fun entry _ => (told entry).value.symm
  · rw [reports, reports']
    refine List.Perm.trans (List.Perm.of_eq ?_) (entries.flatMap_right _)
    rw [List.flatMap_map]
    exact List.flatMap_congr fun entry _ => (told entry).diagnostics.symm

end

theorem checked_perm_overriding : ∃ rename,
    Hierarchy.Renames rename (checked Hierarchy.overriding).hierarchy
        (checked ⟨Hierarchy.overriding.classes.reverse⟩).hierarchy ∧
      (((checked Hierarchy.overriding).program.classes.zip (checked Hierarchy.overriding).types).map
        (ClassDecl.retypeWith rename)).Perm
          ((checked ⟨Hierarchy.overriding.classes.reverse⟩).program.classes.zip
            (checked ⟨Hierarchy.overriding.classes.reverse⟩).types) ∧
      (declarationFaults Hierarchy.overriding ++ (ofProgram Hierarchy.overriding).collect.1.build.1.check.2).Perm
        (declarationFaults ⟨Hierarchy.overriding.classes.reverse⟩ ++
          (ofProgram ⟨Hierarchy.overriding.classes.reverse⟩).collect.1.build.1.check.2) := by
  have parents : ∀ child parent, Hierarchy.overriding.DeclaresParent child parent →
      child = "Main" ∧ parent = "Base" := by
    rintro child parent ⟨decl, member, rfl, isParent⟩
    have all : ∀ decl ∈ Hierarchy.overriding.classes, ∀ parent ∈ decl.parent.map Ident.name,
        decl.name.name = "Main" ∧ parent = "Base" := by
      decide
    exact all decl member parent isParent
  refine checked_perm (by decide) (List.reverse_perm _).symm fun name cycle => ?_
  obtain ⟨_, first, _⟩ := TransGen.head'_iff.mp cycle
  obtain ⟨_, _, last⟩ := TransGen.tail'_iff.mp cycle
  have isMain := (parents _ _ first).1
  have isBase := (parents _ _ last).2
  rw [isMain] at isBase
  exact absurd isBase (by decide)

end Analysis

end CoolLang
