import CoolLang.Proofs.Analysis.ScopeOrder
import CoolLang.Proofs.Hierarchy.Build
import CoolLang.Proofs.Inference.Invariant
import CoolLang.Proofs.Inference.Learning
import CoolLang.Proofs.Typing.Invariant
import CoolLang.Proofs.Typing.Task

/-!
What inference and verification resolve. Over a tree with nothing open, typing gives every expression a static
type that is not one to be inferred (`Typing.resolves_verifyClasses`), and a walk of inference leaves none
(`Inference.resolves_inferClasses`). So nothing is left to be inferred: after inference no variable, no
signature and no static type of an expression is `AUTO_TYPE`, in however few walks and whatever is wrong with
the program (`Analysis.infer_resolves`).
-/

namespace CoolLang

namespace Typing

/-- A state of a replay over a tree with nothing open. -/
structure Replaying (state : TypingState) : Prop where
  replaying : ∃ cursor, state.cursor = some cursor
  consistent : state.tree.Consistent True

theorem replaying_openScope {state : TypingState} (ready : Replaying state) (scope : ScopeId) :
    Replaying (openScope scope state).2 := by
  obtain ⟨tree, _, drift, found⟩ := state
  obtain ⟨⟨cursor, rfl⟩, consistent⟩ := ready
  unfold openScope
  simp only [bind, StateT.bind, get, getThe, MonadStateOf.get, StateT.get, pure]
  cases cursor.enter tree with
  | ok next => exact ⟨⟨next, rfl⟩, consistent⟩
  | error => exact ⟨⟨cursor, rfl⟩, consistent⟩

theorem replaying_closeScope {state : TypingState} (ready : Replaying state) :
    Replaying (closeScope state).2 := by
  obtain ⟨tree, _, drift, found⟩ := state
  obtain ⟨⟨cursor, rfl⟩, consistent⟩ := ready
  unfold closeScope
  simp only [bind, StateT.bind, get, getThe, MonadStateOf.get, StateT.get, pure]
  cases cursor.leave tree with
  | ok next => exact ⟨⟨next, rfl⟩, consistent⟩
  | error => exact ⟨⟨cursor, rfl⟩, consistent⟩

theorem replaying_declare {state : TypingState} (ready : Replaying state) (scope : ScopeId) (place : Nat)
    (info : Variable) : Replaying (declare scope place info state).2 := by
  obtain ⟨cursor, isCursor⟩ := ready.replaying
  rw [declare_of_replaying place info isCursor]
  exact ready

/-- Over a tree and a hierarchy with nothing open, no type is one to be inferred. -/
theorem resolves {hierarchy : Hierarchy} (consistent : hierarchy.Consistent True) :
    Invariant hierarchy (· ≠ .autoType) (fun _ => True) Replaying where
  found _ _ ready := ⟨ready.replaying, ready.consistent⟩
  openScope _ scope ready := replaying_openScope ready scope
  closeScope _ ready := replaying_closeScope ready
  declare _ scope place info ready _ := replaying_declare ready scope place info
  slot _ id _ ready isClass :=
    TypeId.resolveIn_ne_autoType (ready.consistent.variableAt id).ne_autoType isClass
  gives := Hierarchy.gives_resolved consistent
  auto := trivial
  weaken _ _ := trivial
  written _ _ _ := trivial

theorem resolves_verifyClasses {hierarchy : Hierarchy} (consistent : hierarchy.Consistent True)
    (decls : List ClassDecl) (types : ClassTypes)
    (areClasses : ∀ type, some type ∈ types → type ≠ .autoType) {state : TypingState}
    (ready : Replaying state) :
    Note.Resolved (Program.notes ⟨(verifyClasses hierarchy decls types state).1⟩ types) :=
  ((resolves consistent).typed_verifyClasses decls types areClasses [] state ready).2

end Typing

namespace Inference

/-- A state from which a walk goes by these marks, with nothing open. -/
structure Ready (marks : List ScopeMark) (state : InferenceState) : Prop where
  consistent : state.Consistent True
  guided : Guided marks state

theorem Runs.ready {first second : List ScopeMark} {before after : InferenceState}
    (runs : Runs first before after) (ready : Ready (first ++ second) before) : Ready second after :=
  ⟨runs.consistent ready.consistent, runs.guided ready.guided⟩

/-- Steps of a walk keep it ready for those after them. -/
theorem ready_of_runs {α : Type} {marks : List ScopeMark} {property : α → Prop} {action : Inference α}
    (runs : Yields Runs marks property action) : Consumes Ready marks property action :=
  fun _ state ready => ⟨(runs state).1.ready ready, (runs state).2⟩

/-- Where nothing is open, no type is one to be inferred. -/
theorem resolves : Invariant (· ≠ .autoType) (fun _ => True) Ready where
  builtins := ⟨nofun, nofun, nofun, nofun, nofun⟩
  move _ _ _ ready := Runs.ready (Runs.move Runs.done) ready
  learn lesson _ _ _ ready := Runs.ready (Runs.learn lesson Runs.done) ready
  noDrift _ _ ready := ready.guided.noDrift
  gives _ _ ready := Hierarchy.gives_resolved ready.consistent.hierarchy
  slot _ _ id _ ready isClass :=
    TypeId.resolveIn_ne_autoType (ready.consistent.tree.variableAt id).ne_autoType isClass

variable {current : TypeId}

theorem resolves_inferClass (concrete : current.isConcrete = true) (decl : ClassDecl) :
    Consumes Ready (Nest.marks (.scope decl.nests)) (fun result => Note.Resolved result.notes)
      (inferClass current decl) := by
  have hinting : Note.Hinting (· ≠ .autoType) (decl.features.flatMap Feature.notes) :=
    fun _ _ _ _ => TypeId.ne_autoType_of_isConcrete
  unfold inferClass
  rw [Nest.marks, ← List.singleton_append]
  exact resolves.typed_openScope.bind fun scope _ =>
    (resolves.typed_inferFeatures (TypeId.ne_autoType_of_isConcrete concrete) (fun _ _ _ _ _ _ => trivial)
      concrete scope decl.features hinting).bind fun features inside =>
    (ready_of_runs (runs_learn (.record current scope))).bind fun _ _ =>
    resolves.typed_closeScope.bindSilent fun _ _ => .pure inside

theorem resolves_inferClasses (decls : List ClassDecl) (types : ClassTypes)
    (areClasses : ∀ type, some type ∈ types → type.isConcrete = true) :
    Consumes Ready (Nest.marksAll (Program.nests ⟨decls⟩ types))
      (fun result => Note.Resolved (Program.notes ⟨result⟩ types)) (inferClasses decls types) := by
  induction decls generalizing types with
  | nil => exact .pure Note.AllTyped.nil
  | cons decl decls ih =>
      rcases types with _ | ⟨_ | type, types⟩
      · exact .pure Note.AllTyped.nil
      · have later := ih types fun type member => areClasses type (List.mem_cons_of_mem _ member)
        exact later.bindSilent fun decls inside => .pure inside
      · have later := ih types fun type member => areClasses type (List.mem_cons_of_mem _ member)
        rw [inferClasses, show Program.nests ⟨decl :: decls⟩ (some type :: types) =
          .scope decl.nests :: Program.nests ⟨decls⟩ types from rfl, Nest.marksAll]
        exact (resolves_inferClass (areClasses type List.mem_cons_self) decl).bind fun decl first =>
          later.bindSilent fun decls inside => .pure (Note.AllTyped.append first inside)

/-! ### Walks -/

section

variable {settled : Prop} {types : ClassTypes} {program : Program} {state : InferenceState}

theorem walk_consistent (consistent : state.Consistent settled) :
    (walk types program state).2.Consistent settled := by
  obtain ⟨last, runs, ends, _⟩ := walk_runs types program state
  have begun : (beginWalk state).2.Consistent settled :=
    advance_consistent consistent ⟨consistent.hierarchy, consistent.tree⟩
  have walked := runs.consistent begun
  rw [ends]
  refine advance_consistent walked ?_
  split
  · exact walked
  · exact ⟨walked.hierarchy, walked.tree⟩

/-- A walk over the tree of its program resolves all static types if no declaration is open. -/
theorem walk_resolved (areClasses : ∀ type, some type ∈ types → type.isConcrete = true)
    (isOutline : state.tree.skeleton = Nest.outline (program.nests types))
    (noDrift : state.drift = none) (consistent : state.Consistent True) :
    Note.Resolved ((walk types program state).1.notes types) := by
  obtain ⟨complete, moved, _⟩ := Nest.exists_complete isOutline
  have ready : Ready (Nest.marksAll (program.nests types) ++ []) (beginWalk state).2 := by
    rw [beginWalk, advance_of_none noDrift, List.append_nil]
    exact ⟨⟨consistent.hierarchy, consistent.tree⟩, noDrift, complete, moved⟩
  exact (resolves_inferClasses program.classes types areClasses [] _ ready).2

end

end Inference

variable {types : ClassTypes} {program : Program}

/-! ### Rounds -/

namespace Inference

variable {settled : Prop} {state : InferenceState}

theorem walkUntilStable_consistent (types : ClassTypes) (program : Program) (more : Nat)
    (consistent : state.Consistent settled) :
    (walkUntilStable types more program state).2.Consistent settled := by
  induction more generalizing program state with
  | zero => exact walk_consistent consistent
  | succ more ih =>
      rw [walkUntilStable_succ]
      dsimp only
      split
      · exact ih _ (walk_consistent consistent)
      · exact walk_consistent consistent

theorem walkUntilStable_resolved (areClasses : ∀ type, some type ∈ types → type.isConcrete = true) (more : Nat)
    (isOutline : state.tree.skeleton = Nest.outline (program.nests types)) (noDrift : state.drift = none)
    (consistent : state.Consistent True) :
    Note.Resolved ((walkUntilStable types more program state).1.1.notes types) := by
  induction more generalizing program state with
  | zero => exact walk_resolved areClasses isOutline noDrift consistent
  | succ more ih =>
      obtain ⟨same, noDrift', nodes, _⟩ := walk_spec isOutline noDrift
      rw [walkUntilStable_succ]
      dsimp only
      split
      · refine ih ((ScopeTree.skeleton_of_nodes nodes).trans ?_) noDrift' (walk_consistent consistent)
        rw [isOutline, Program.nests_of_untyped same]
      · exact walk_resolved areClasses isOutline noDrift consistent

theorem settleOpen_consistent (noDrift : state.drift = none) (consistent : state.Consistent settled) :
    (settleOpen state).2.Consistent True := by
  rw [settleOpen_of_none noDrift]
  exact ⟨Hierarchy.settleOpen_consistent consistent.hierarchy,
    ScopeTree.settleOpen_consistent consistent.tree⟩

/-- The second phase starts with nothing open, and walks at least once. -/
theorem bothPhases_resolved (state : InferenceState) (limit : Nat)
    (areClasses : ∀ type, some type ∈ types → type.isConcrete = true)
    (isOutline : state.tree.skeleton = Nest.outline (program.nests types)) (noDrift : state.drift = none)
    (consistent : state.Consistent settled) :
    (bothPhases types limit program state).2.Consistent True ∧
      Note.Resolved ((bothPhases types limit program state).1.1.notes types) := by
  obtain ⟨same, noDrift, first⟩ := walkUntilStable_spec state (limit - 1) rfl isOutline noDrift
  have closed := settleOpen_consistent noDrift
    (walkUntilStable_consistent types program (limit - 1) consistent)
  obtain ⟨noDrift, second⟩ := settleOpen_spec noDrift
  refine ⟨walkUntilStable_consistent types _ (limit - 1) closed,
    walkUntilStable_resolved areClasses (limit - 1) ?_ noDrift closed⟩
  rw [Program.nests_of_untyped same]
  exact (ScopeTree.skeleton_of_nodes (second.trans first)).trans isOutline

end Inference

/-! ### Analyses -/

namespace Analysis

/-- Nothing that is known about a program is `AUTO_TYPE`. -/
structure IsResolved (analysis : Analysis) : Prop where
  slots : ∀ info ∈ analysis.tree.vars, info.type ≠ .autoType
  attributes : ∀ type ∈ analysis.hierarchy.concreteIds,
    ∀ attr ∈ (analysis.hierarchy.info type).attributes, attr.type ≠ .autoType
  params : ∀ type ∈ analysis.hierarchy.concreteIds,
    ∀ method ∈ (analysis.hierarchy.info type).methods, ∀ param ∈ method.params, param.type ≠ .autoType
  results : ∀ type ∈ analysis.hierarchy.concreteIds,
    ∀ method ∈ (analysis.hierarchy.info type).methods, method.result.type ≠ .autoType
  /-- Every expression of a class that has a type has a static type. -/
  notes : Note.Resolved (analysis.program.notes analysis.types)

theorem isResolved_of_consistent {analysis : Analysis} (hierarchy : analysis.hierarchy.Consistent True)
    (tree : analysis.tree.Consistent True)
    (notes : Note.Resolved (analysis.program.notes analysis.types)) : analysis.IsResolved := by
  have known (type : TypeId) (isClass : type ∈ analysis.hierarchy.concreteIds) :
      (analysis.hierarchy.info type).Consistent True :=
    (hierarchy type).mono fun _ => ⟨trivial, (List.mem_filter.mp isClass).2⟩
  refine ⟨fun info member => (tree info member).ne_autoType, fun type isClass attr member isAuto => ?_,
    fun type isClass method member param isParam => ?_, fun type isClass method member => ?_, notes⟩
  · exact (known type isClass).attributes attr member isAuto trivial
  · exact (((known type isClass).methods method member).params param isParam).ne_autoType
  · exact ((known type isClass).methods method member).result.ne_autoType

/-- Everything is as it is declared, and only classes are types of classes. -/
theorem checked_spec (program : Program) :
    (∀ type, some type ∈ (checked program).types → type.isConcrete = true) ∧
      (checked program).hierarchy.Consistent False ∧ (checked program).tree.Consistent False := by
  obtain ⟨collected, areClasses⟩ := Hierarchy.collect_consistent False program
  obtain ⟨_, _, declared⟩ := Program.check_spec (Hierarchy.length_collect .initial program)
    ((Hierarchy.initial.collect program).1.build program (Hierarchy.initial.collect program).2.1).1
  refine ⟨areClasses,
    Hierarchy.build_consistent collected program _, fun info member => ?_⟩
  obtain ⟨name, type, rfl⟩ := declared info member
  exact Variable.declared_consistent name type not_false

/-- Verifying over a tree with nothing open leaves nothing open. -/
theorem verify_resolved {analysis : Analysis} (hierarchy : analysis.hierarchy.Consistent True)
    (tree : analysis.tree.Consistent True)
    (areClasses : ∀ type, some type ∈ analysis.types → type.isConcrete = true) :
    analysis.verify.1.1.IsResolved := by
  have notes := Typing.resolves_verifyClasses hierarchy analysis.program.classes analysis.types
    (fun type member => TypeId.ne_autoType_of_isConcrete (areClasses type member))
    (show Typing.Replaying ⟨analysis.tree, some .initial, none, #[]⟩ from ⟨⟨_, rfl⟩, tree⟩)
  exact isResolved_of_consistent hierarchy tree notes

/-- The walks of inference and of the verification after it are in step with the scope tree. -/
theorem passes_run (program : Program) (limit : Nat) :
    (∃ walks, ((checked program).infer limit).2 = .ok walks) ∧
      ((checked program).infer limit).1.verify.2 = .ok () := by
  have isOutline := checked_outline program
  obtain ⟨walks, same, nodes⟩ := Program.infer_spec (checked program).hierarchy limit rfl isOutline
  obtain ⟨_, _, _, verified⟩ := Program.verify_spec
    ((checked program).infer limit).1.hierarchy ((ScopeTree.skeleton_of_nodes nodes).trans
      (isOutline.trans (by rw [Program.nests_of_untyped same])))
  exact ⟨walks, verified⟩

/-- Inference leaves nothing to be inferred, whatever the program and however few the walks, and so does
the verification after it. -/
theorem infer_resolves (program : Program) (limit : Nat) :
    let inferred := (checked program).infer limit
    (∃ walks, inferred.2 = .ok walks) ∧ inferred.1.IsResolved ∧
      inferred.1.verify.2 = .ok () ∧ inferred.1.verify.1.1.IsResolved := by
  obtain ⟨areClasses, hierarchy, tree⟩ := checked_spec program
  obtain ⟨walks, verified⟩ := passes_run program limit
  obtain ⟨consistent, notes⟩ := Inference.bothPhases_resolved
    ⟨(checked program).hierarchy, (checked program).tree, .initial, false, none⟩ limit areClasses
    (checked_outline program) rfl ⟨hierarchy, tree⟩
  exact ⟨walks, isResolved_of_consistent consistent.hierarchy consistent.tree notes, verified,
    verify_resolved consistent.hierarchy consistent.tree areClasses⟩

end Analysis

end CoolLang
