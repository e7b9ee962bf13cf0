import CoolLang.Proofs.Analysis.Frame
import CoolLang.Proofs.Inference.Attributes
import CoolLang.Proofs.Inference.Records
import CoolLang.Proofs.Inference.Rest

/-!
Inference at rest. Where the last walk of inference has learned nothing, no later walk will, and what is known
of a declaration is the same wherever it is looked up (`Analysis.followed_atRest`). So inference has no
declaration of its own to blame (`Analysis.inferred_blameless`).
-/

namespace CoolLang

namespace Inference

variable {tree : ScopeTree} {types : ClassTypes} {owner : TypeId} {around scope : ScopeId} {part : Feature}

theorem around_of_featureVisits {place : Nat} {features : List Feature} {type : TypeId} {outer : ScopeId}
    (member : .feature owner around scope part ∈ featureVisits tree type outer place features) :
    owner = type ∧ around = outer := by
  induction features generalizing place with
  | nil => cases member
  | cons feature features ih =>
      rcases List.mem_cons.mp member with same | later
      · cases same
        exact ⟨rfl, rfl⟩
      · exact ih later

/-- Where the features of a class are visited, its attributes are recorded. -/
theorem record_of_feature {decls : List ClassDecl} {scopes : List ScopeId}
    (member : .feature owner around scope part ∈ classVisits tree decls types scopes) :
    .record owner around ∈ classVisits tree decls types scopes := by
  induction decls generalizing types scopes with
  | nil => cases member
  | cons decl decls ih =>
      rcases types with _ | ⟨_ | type, types⟩
      · cases member
      · exact ih member
      · rcases scopes with _ | ⟨outer, scopes⟩
        · cases member
        · rcases List.mem_append.mp member with inside | later
          · obtain ⟨rfl, rfl⟩ := around_of_featureVisits inside
            exact List.mem_append_right _ List.mem_cons_self
          · exact List.mem_append_right _
              (List.mem_cons_of_mem _ (ih (List.mem_of_ne_of_mem (by simp) later)))

end Inference

theorem TypeId.ne_error_of_isConcrete {type : TypeId} (concrete : type.isConcrete = true) : type ≠ .error := by
  rintro rfl
  cases concrete

namespace Inference

/-- Static types do not matter. -/
theorem Visit.backed_untyped {hierarchy : Hierarchy} {tree : ScopeTree} {visit : Visit} :
    visit.untyped.Backed hierarchy tree ↔ visit.Backed hierarchy tree := by
  rcases visit with ⟨_, _, _, _ | _⟩ | _ <;> exact Iff.rfl

end Inference

namespace Analysis

open Inference

variable {program : Program} {left : Program × InferenceState}

/-- What is known about a program once inference has left nothing open. -/
structure Closed (program : Program) (left : Program × InferenceState) : Prop where
  standing : Standing (checked program).hierarchy (checked program).types left
  closed : left.2.Consistent True
  untyped : left.1.untyped = program.untyped
  classes : untypedClasses left.1.classes (checked program).types =
    untypedClasses program.classes (checked program).types
  frames : (checked program).started.2.Frames left.2
  fills : (checked program).hierarchy.Fills left.2.hierarchy

/-- What is known about a program once a walk has nothing more to learn. -/
structure AtRest (program : Program) (left : Program × InferenceState) : Prop extends Closed program left where
  quiet : Quiet (walk (checked program).types left.1 left.2).2

/-- Types are told apart by their names. -/
theorem find?_name {type : TypeId} (known : type.index < (checked program).hierarchy.types.size)
    (notError : type ≠ .error) :
    (checked program).hierarchy.find? ((checked program).hierarchy.name type) = some type := by
  obtain ⟨collected, _⟩ := Hierarchy.collect_collected program
  have size : (checked program).hierarchy.types.size = (Hierarchy.initial.collect program).1.types.size :=
    Hierarchy.size_build ..
  exact collected.find?_name program _ (size ▸ known) notError

theorem find?_autoType (program : Program) : (checked program).hierarchy.find? "AUTO_TYPE" = some .autoType := by
  obtain ⟨collected, _⟩ := Hierarchy.collect_collected program
  have found := @find?_name program .autoType
    (Nat.lt_of_lt_of_le (by decide) (checked_prepared program).rooted.builtins) (by decide)
  rwa [show (checked program).hierarchy.name .autoType = "AUTO_TYPE" from
    collected.build_name_autoType (Hierarchy.collect_numbered program)] at found

/-- What is written as `AUTO_TYPE` is to be inferred. -/
theorem resolve_autoType {written : Ident} (isAuto : written.name = "AUTO_TYPE") :
    ((checked program).hierarchy.resolve written).1 = .autoType := by
  rw [Hierarchy.resolve, Hierarchy.get, isAuto, find?_autoType]

/-- However few the walks, inference leaves nothing open. -/
theorem followed_closed (places : ∀ decl ∈ program.classes, (decl.features.map Feature.position).Nodup) (limit : Nat) :
    Closed program ((checked program).followed limit) := by
  have passes := passes_whole limit (checked program)
  obtain ⟨_, standing, _⟩ := ascends_of_passes passes (started_enrolled program) (started_standing program)
  obtain ⟨untyped, classes, frames⟩ := frames_of_passes places passes
  obtain ⟨areClasses, hierarchy, tree⟩ := checked_spec program
  have closed := (bothPhases_resolved (checked program).started.2 limit areClasses (checked_outline program) rfl
    ⟨hierarchy, tree⟩).1
  have fills := fills_of_passes passes (started_enrolled program) (started_standing program)
  exact ⟨standing, closed, untyped, classes, frames, fills⟩

theorem followed_atRest (places : ∀ decl ∈ program.classes, (decl.features.map Feature.position).Nodup)
    {limit : Nat} (stopped : ((checked program).followed limit).2.changed = false) :
    AtRest program ((checked program).followed limit) := by
  have closed := followed_closed places limit
  obtain ⟨_, fixed⟩ := followed_fixed limit stopped
  refine ⟨closed, ?_⟩
  rw [show (walk (checked program).types ((checked program).followed limit).1 ((checked program).followed limit).2).2 =
    ((checked program).followed limit).2 from congrArg Prod.snd fixed]
  exact ⟨stopped, closed.standing.noDrift⟩

theorem Closed.grounded (closed : Closed program left) : left.2.tree.Grounded :=
  (checked_surveyed program).2.2.1.of_nodes closed.frames.tree.nodes closed.frames.tree.size

namespace AtRest

variable (rest : AtRest program left)
include rest

theorem rests {type : TypeId} (isClass : left.2.hierarchy.IsClass type) :
    Rests left.2.hierarchy type (some left.2.tree) := by
  have prepared := checked_prepared program
  have alike := rest.standing.sound.alike
  have placed {info : Variable} (placed : info.Placed (checked program).hierarchy) : info.Placed left.2.hierarchy :=
    ⟨alike.size ▸ placed.known, placed.concrete⟩
  refine ⟨alike.symm.rooted prepared.rooted, ?_, isClass, ?_, fun owner method member => ?_, fun known isTree => ?_,
    fun known isTree id => ?_⟩
  · rw [alike.size]
    exact rest.standing.sound.gives prepared.rooted
  · rw [alike.find?]
    exact find?_autoType program
  · have ofMethod := rest.standing.sound.method member
    exact ⟨fun param isParam => placed (ofMethod.params param isParam), placed ofMethod.result⟩
  · obtain rfl := Option.some.inj isTree
    exact rest.grounded.wellFormed
  · obtain rfl := Option.some.inj isTree
    exact placed (rest.standing.sound.slot prepared.rooted.positive id)

/-- The visits that the program is given are those that any walk makes, but for static types. -/
theorem map_visits : (visits left.1 (checked program).types left.2.tree).map Visit.untyped =
    (visits program (checked program).types (checked program).tree).map Visit.untyped := by
  rw [visits_congr (show left.2.tree.nodes = (checked program).tree.nodes from rest.frames.tree.nodes)]
  exact visits_of_untyped rest.untyped

theorem mem_record {owner : TypeId} {scope : ScopeId}
    (member : .record owner scope ∈ visits program (checked program).types (checked program).tree) :
    .record owner scope ∈ visits left.1 (checked program).types left.2.tree := by
  have untyped := List.mem_map_of_mem (f := Visit.untyped) member
  rw [← rest.map_visits] at untyped
  obtain ⟨visit, isVisit, same⟩ := List.mem_map.mp untyped
  rcases visit with ⟨_, _, _, _⟩ | ⟨_, _⟩
  · cases same
  · cases same
    exact isVisit

section

variable (places : ∀ decl ∈ program.classes, (decl.features.map Feature.position).Nodup)
include places

/-- The attributes of a class have the types of its first variables. -/
theorem recorded {owner : TypeId} {scope : ScopeId}
    (member : .record owner scope ∈ visits program (checked program).types (checked program).tree) :
    ∃ front back, left.2.tree.locals scope = front ++ back ∧ List.Forall₂ (fun attr id =>
      ∃ before ∈ ((checked program).hierarchy.info owner).attributes,
        Records before attr (left.2.tree.variableAt id)) (left.2.hierarchy.info owner).attributes front := by
  obtain ⟨reached, hierarchy, tree, noDrift, quiet⟩ :=
    walk_visits_quiet rest.standing.outline rest.quiet _ (rest.mem_record member)
  have recorded := recordAttributes_quiet noDrift quiet
  rw [hierarchy, tree] at recorded
  have paired : _ <+: _ := visits_paired places _ member
  rw [ScopeTree.slots, show (checked program).tree.locals scope = left.2.tree.locals scope from
    (rest.frames.tree.locals scope).symm] at paired
  exact recorded_attributes rest.frames.tree rest.closed.tree (rest.frames.hierarchy.attributes owner) paired recorded

theorem backed : ∀ visit ∈ visits left.1 (checked program).types left.2.tree,
    visit.Backed left.2.hierarchy left.2.tree := by
  intro visit member
  have untyped := List.mem_map_of_mem (f := Visit.untyped) member
  rw [rest.map_visits] at untyped
  obtain ⟨other, isOther, same⟩ := List.mem_map.mp untyped
  rw [← Visit.backed_untyped, ← same, Visit.backed_untyped]
  obtain ⟨_, isOf⟩ := of_classVisits (checked program).hierarchy (checked program).types isOther
  rcases other with ⟨owner, around, scope, decl | decl⟩ | ⟨owner, scope⟩
  · obtain ⟨class', isTyped, isFeature⟩ := isOf
    intro isAuto known found
    obtain ⟨front, back, locals, records⟩ := rest.recorded places (record_of_feature isOther)
    have isKnown := List.find?_some found
    rw [Bool.and_eq_true, beq_iff_eq, beq_iff_eq] at isKnown
    obtain ⟨id, isFound, before, isBefore, record⟩ := exists_find?_of_forall₂ records
      (fun _ _ ⟨_, _, record⟩ => record.name) (rest.standing.sound.distinct owner).attributes
      (List.mem_of_find?_eq_some found)
    have isDeclared := declared_of_attribute isTyped (places class' (Hierarchy.mem_classes_of_mem_typed isTyped))
      isFeature isBefore (record.frames.position.symm.trans isKnown.2)
    refine ⟨id, ScopeTree.find?_of_local? _ (Nat.zero_lt_of_lt rest.grounded.known) ?_, record.auto.mpr ?_,
      fun _ => record.type⟩
    · rw [ScopeTree.local?, locals, List.find?_append, ← isKnown.1, isFound, Option.some_or]
    · rw [isDeclared]
      exact resolve_autoType isAuto
  · obtain ⟨class', isTyped, isFeature⟩ := isOf
    intro isAuto known found
    obtain ⟨method, isMethod, related⟩ := rest.frames.hierarchy.exists_of_methodAt? found
    have isDeclared := declared_of_methodAt? isTyped (places class' (Hierarchy.mem_classes_of_mem_typed isTyped))
      isFeature isMethod
    rw [related.result.auto, isDeclared]
    exact beq_iff_eq.mpr (resolve_autoType isAuto)
  · trivial

/-- No value flows into an inferred declaration with whose type it does not conform. -/
theorem blameless : (left.1.survey (checked program).types left.2.hierarchy (some left.2.tree)).Blameless
    left.2.hierarchy :=
  walk_blameless (fun _ isClass => rest.rests isClass)
    (fun type member => rest.standing.sound.alike.isClass.mpr ((checked_prepared program).areClasses type member))
    rest.grounded rest.standing.outline rest.quiet (rest.backed places)

end

end AtRest

/-- Inference has no declaration of its own to blame. Once its last walk has learned nothing, verifying reports
what a survey finds over the types that have been inferred, where nothing is reported of a value that flows into
a declaration whose type was left to inference. -/
theorem inferred_blameless {source : String}
    (parsed : Program.parse (Scan.ofSource source).tokens = .ok program) {limit : Nat}
    (stopped : ((checked program).followed limit).2.changed = false) :
    let inferred := ((checked program).infer limit).1
    let survey := inferred.program.survey inferred.types inferred.hierarchy (some inferred.tree)
    inferred.verify.1.2 = survey.diagnostics inferred.hierarchy ∧
      (∀ target type expected position, .flow target type expected position ∈ survey.findings → target.IsInferred →
        (Finding.flow target type expected position).diagnostics inferred.hierarchy = []) ∧
      Site.Declared (checked program).tree
        (program.declarations (checked program).types (checked program).hierarchy (checked program).tree) ∧
      (checked program).Preserves inferred := by
  have places : ∀ decl ∈ program.classes, (decl.features.map Feature.position).Nodup :=
    fun decl member => (Program.parse_shaped parsed member).2
  have rest := followed_atRest places stopped
  intro inferred survey
  have verified := Program.verify_surveyed ((checked program).followed limit).1 (checked program).types
    ((checked program).followed limit).2.hierarchy rest.grounded rest.standing.outline
  refine ⟨verified.2, fun target type expected position member isInferred => ?_, (checked_surveyed program).2.2.2,
    (infer_preserves places limit).1⟩
  exact if_pos (rest.blameless places _ member isInferred)

theorem inferred_blameless_inferring : ((checked Program.inferring).followed 32).2.changed = false ∧
    let inferred := ((checked Program.inferring).infer 32).1
    let survey := inferred.program.survey inferred.types inferred.hierarchy (some inferred.tree)
    ∀ target type expected position, .flow target type expected position ∈ survey.findings → target.IsInferred →
      (Finding.flow target type expected position).diagnostics inferred.hierarchy = [] := by
  have stopped : ((checked Program.inferring).followed 32).2.changed = false := by decide +kernel
  exact ⟨stopped, (inferred_blameless Program.parse_inferring stopped).2.1⟩

end Analysis

end CoolLang
