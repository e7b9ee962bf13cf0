import CoolLang.Proofs.Inference.Progress
import CoolLang.Proofs.Scope.Traversal

/-!
How a walk gets on. Each class leaves declarations where they are or moves them upward, and leaves less to
be learned where it has taught anything (`Inference.inferClasses_between`). Settling what is open does the same
to the declarations of a type (`Inference.settleType_advances`).
-/

namespace CoolLang

namespace Inference

open InferenceState

variable {base : Hierarchy} {classes : List (TypeId × ScopeId)} {start state : InferenceState}

/-- A state that a walk has come to, with marks that are still ahead of it. -/
structure Underway (base : Hierarchy) (classes : List (TypeId × ScopeId)) (start : InferenceState)
    (marks : List ScopeMark) (state : InferenceState) : Prop where
  progress : start.Progress base classes state
  guided : Guided marks state

section

variable (rooted : base.Rooted) (sound : start.Sound base)
include rooted sound

theorem underway_move {mark : ScopeMark} {rest : List ScopeMark}
    (underway : Underway base classes start (mark :: rest) state) :
    Underway base classes start rest (moveCursor (fun tree cursor => cursor.move tree mark) state).2 := by
  have guided := (Runs.move Runs.done).guided underway.guided
  refine ⟨underway.progress.trans rooted sound (.of_same rooted underway.progress.sound ?_ ?_ ?_), guided⟩
  all_goals
    rw [moveCursor, advance_of_none underway.guided.noDrift]
    dsimp only
    split <;> rfl

theorem underway_learn {rest : List ScopeMark} (lesson : Lesson)
    (learns : ∀ state : InferenceState, state.Sound base → state.drift = none →
      start.tree.vars.size = state.tree.vars.size → state.Progress base classes (lesson.learn state).2)
    (underway : Underway base classes start rest state) :
    Underway base classes start rest (lesson.learn state).2 :=
  ⟨underway.progress.trans rooted sound (learns state underway.progress.sound underway.guided.noDrift
      underway.progress.advances.size.symm),
    (Runs.learn lesson Runs.done).guided underway.guided⟩

/-- Inside a class, a walk keeps to types that exist, and each lesson is some progress. -/
theorem underway_invariant : Invariant (TypeId.Absolute base.types.size) (· < start.tree.vars.size)
    (Underway base classes start) where
  builtins := (sound.gives rooted).toOfBuiltins
  move _ _ _ underway := underway_move rooted sound underway
  learn lesson _ _ fits underway := underway_learn rooted sound lesson
    (fun _ isSound noDrift size => learn_progress rooted isSound noDrift lesson (size ▸ fits)) underway
  noDrift _ _ underway := underway.guided.noDrift
  gives _ _ underway := underway.progress.sound.gives rooted
  slot _ _ id _ underway isClass :=
    isClass.resolveIn (underway.progress.sound.known.variableAt rooted.positive id)

end

/-! ### Classes -/

/-- A state between two classes, at the root, with the classes up to some place behind it. -/
structure Between (base : Hierarchy) (classes : List (TypeId × ScopeId)) (start : InferenceState)
    (place : Nat) (state : InferenceState) : Prop where
  progress : start.Progress base classes state
  noDrift : state.drift = none
  cursor : ∃ entered, state.cursor = ⟨⟨ScopeTree.root, place⟩, [], entered⟩

section

variable (rooted : base.Rooted) (sound : start.Sound base) (once : (classes.map Prod.fst).Nodup)
include rooted sound once

theorem inferClass_between {owner : TypeId} {scope : ScopeId} {place : Nat} {decl : ClassDecl}
    (isClass : base.IsClass owner) (listed : (owner, scope) ∈ classes)
    (isNext : (start.tree.children ScopeTree.root)[place]? = some scope)
    (index : start.tree.index scope = place) (fits : (Nest.scope decl.nests).At start.tree scope)
    (hinting : Note.Hinting (TypeId.Absolute base.types.size) decl.notes)
    (between : Between base classes start place state) :
    Between base classes start (place + 1) (inferClass owner decl state).2 ∧
      Note.AllTyped (TypeId.Absolute base.types.size) (inferClass owner decl state).1.notes := by
  obtain ⟨progress, noDrift, entered, atRoot⟩ := between
  have nodes : state.tree.nodes = start.tree.nodes := progress.advances.nodes
  rw [← ScopeTree.children_of_nodes nodes] at isNext
  rw [← ScopeTree.index_of_nodes nodes] at index
  have fits : (Nest.scope decl.nests).At state.tree scope := by
    rwa [← Nest.at_skeleton, ScopeTree.skeleton_of_nodes nodes, Nest.at_skeleton]
  have moved : Cursor.moves state.tree state.cursor (Nest.scope decl.nests).marks = .ok _ :=
    atRoot ▸ Nest.moves_marks (.scope decl.nests) isNext index fits
  obtain ⟨noDrift', isLast, _⟩ := (inferClass_runs owner decl state).1.moves noDrift moved
  have kept : Invariant _ _ (Underway base classes start) := underway_invariant rooted sound
  have opened : (openScope state).1 = scope := by
    change (moveCursor (fun tree cursor => cursor.move tree .enter) state).2.cursor.current = scope
    rw [moveCursor, advance_of_none noDrift, atRoot]
    dsimp only
    rw [Cursor.move, Cursor.enter_eq_ok isNext index]
    rfl
  have underway : Underway base classes start ([.enter] ++ (Nest.marksAll decl.nests ++ [.leave])) state :=
    ⟨progress, noDrift, _, moved⟩
  obtain ⟨underway, _⟩ := kept.typed_openScope _ _ underway
  have locals : ∀ rest state scope, Underway base classes start rest state →
      ∀ id ∈ state.tree.locals scope, id < start.tree.vars.size := by
    intro _ state scope underway id member
    rw [← underway.progress.advances.size]
    exact underway.progress.sound.known.locals scope id member
  obtain ⟨underway, notes⟩ := kept.typed_inferFeatures isClass.absolute locals isClass.concrete scope decl.features
    hinting [.leave] _ underway
  have recorded := underway_learn rooted sound (.record owner scope)
    (fun state isSound noDrift _ => recordAttributes_progress rooted isSound noDrift listed once) underway
  obtain ⟨underway, _⟩ := kept.typed_closeScope [] _ recorded
  have unfolded : inferClass owner decl state =
      ({ decl with features := (inferFeatures owner scope decl.features (openScope state).2).1 },
        (closeScope ((Lesson.record owner scope).learn
          (inferFeatures owner scope decl.features (openScope state).2).2).2).2) := by
    rw [← opened]
    rfl
  rw [unfolded] at isLast noDrift' ⊢
  exact ⟨⟨underway.progress, noDrift', _, isLast⟩, notes⟩

theorem inferClasses_between {decls : List ClassDecl} {types : ClassTypes} {ids : List ScopeId} {place : Nat}
    (areClasses : ∀ type, some type ∈ types → base.IsClass type)
    (listed : ∀ pair ∈ (types.filterMap id).zip ids, pair ∈ classes)
    (left : (start.tree.children ScopeTree.root).drop place = ids)
    (fits : Nest.AllAt start.tree place (Program.nests ⟨decls⟩ types) ids)
    (hinting : Note.Hinting (TypeId.Absolute base.types.size) (Program.notes ⟨decls⟩ types))
    (between : Between base classes start place state) :
    (∃ place, Between base classes start place (inferClasses decls types state).2) ∧
      Note.AllTyped (TypeId.Absolute base.types.size)
        (Program.notes ⟨(inferClasses decls types state).1⟩ types) := by
  induction decls generalizing types ids place state with
  | nil => exact ⟨⟨place, between⟩, .nil⟩
  | cons decl decls ih =>
      rcases types with _ | ⟨_ | type, types⟩
      · exact ⟨⟨place, between⟩, .nil⟩
      · exact ih (fun type member => areClasses type (List.mem_cons_of_mem _ member)) listed left fits hinting
          between
      · rw [show Program.nests ⟨decl :: decls⟩ (some type :: types) =
          .scope decl.nests :: Program.nests ⟨decls⟩ types from rfl] at fits
        have hinting : Note.Hinting _ (decl.notes ++ Program.notes ⟨decls⟩ types) := hinting
        obtain ⟨ofClass, others⟩ := hinting.split
        obtain _ | ⟨scope, ids⟩ := ids
        · exact fits.elim
        · obtain ⟨index, first, later⟩ := fits
          obtain ⟨isFirst, areLater⟩ := List.forall_mem_cons.mp listed
          obtain ⟨isNext, rest⟩ := next_of_drop left
          obtain ⟨between, notes⟩ := inferClass_between rooted sound once
            (areClasses type List.mem_cons_self) isFirst isNext index first ofClass between
          obtain ⟨between, notes'⟩ := ih (fun type member => areClasses type (List.mem_cons_of_mem _ member))
            areLater rest later others between
          exact ⟨between, notes.append notes'⟩

end

/-! ### Settling -/

section

variable (rooted : base.Rooted)
include rooted

theorem settleType_advances (sound : state.Sound base) (owner : TypeId) :
    let settled := { state with
      hierarchy := state.hierarchy.update owner fun info => { info with
        attributes := info.attributes.map Attribute.settleOpen
        methods := info.methods.map Method.settleOpen } }
    settled.Sound base ∧ state.Advances base settled := by
  intro settled
  have alike : settled.hierarchy.Alike state.hierarchy := .update _ owner fun _ => rfl
  have size := sound.alike.size
  have names : ((state.hierarchy.info owner).methods.map Method.settleOpen).map Method.name =
      (state.hierarchy.info owner).methods.map Method.name := List.map_map
  have kept {α : Type} (keep : Attribute → α)
      (same : ∀ attr type, keep { attr with type := type } = keep attr) :
      ((state.hierarchy.info owner).attributes.map Attribute.settleOpen).map keep =
        (state.hierarchy.info owner).attributes.map keep := by
    rw [List.map_map]
    refine List.map_congr_left fun attr _ => ?_
    rw [Function.comp_apply, Attribute.settleOpen]
    split
    · exact same attr .object
    · rfl
  refine ⟨⟨alike.trans sound.alike, ⟨?_, sound.consistent.tree⟩, ?_, ?_, sound.known⟩,
    alike, rfl, rfl, slots_refl rooted sound, fun other => ?_, fun other => ?_⟩
  · exact Hierarchy.update_consistent sound.consistent.hierarchy
      ((TypeInfo.settleOpen_consistent (sound.consistent.hierarchy owner)).mono fun _ => trivial)
  · refine Hierarchy.update_valid sound.valid ⟨fun attr member => ?_, fun method member => ?_⟩
    · obtain ⟨before, isAttribute, rfl⟩ := List.mem_map.mp member
      rw [Attribute.settleOpen]
      split
      · exact ⟨size ▸ rooted.isClass_object.known, nofun⟩
      · exact (sound.valid owner).attributes before isAttribute
    · obtain ⟨before, isMethod, rfl⟩ := List.mem_map.mp member
      have placed := sound.method isMethod
      rw [size]
      exact learned_method_valid (Method.settleOpen_placed rooted placed)
        (Method.settleOpen_advances rooted placed) (size ▸ (sound.valid owner).methods before isMethod)
  · exact Hierarchy.update_distinct sound.distinct
      ⟨(kept Attribute.name fun _ _ => rfl) ▸ (sound.distinct owner).attributes,
        names ▸ (sound.distinct owner).methods⟩
  · dsimp only [settled]
    rw [Hierarchy.info_update_eq]
    split
    · exact List.forall₂_map_right_iff.mpr (List.forall₂_same.mpr fun method member =>
        Method.settleOpen_advances rooted (sound.method member))
    · exact methods_refl rooted sound other
  · dsimp only [settled]
    rw [Hierarchy.info_update_eq]
    split
    · rename_i reached
      rw [reached.1]
      exact kept (fun attr => (attr.name, attr.position)) fun _ _ => rfl
    · rfl

end

end Inference

end CoolLang
