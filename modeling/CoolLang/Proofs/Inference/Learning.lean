import CoolLang.Proofs.Grammar.Saturation
import CoolLang.Proofs.Hierarchy.Consistency
import CoolLang.Proofs.Inference.Run

/-!
What a walk of inference can learn. Whatever it learns, a declaration without a type stays open, and the
type of one that is not open is a class (`Inference.Runs.consistent`).
-/

namespace CoolLang

variable {settled : Prop}

namespace ScopeTree

def Consistent (settled : Prop) (tree : ScopeTree) : Prop :=
  ∀ info ∈ tree.vars, info.Consistent settled

variable {tree : ScopeTree}

/-- A number that no variable has tells nothing wrong. -/
theorem Consistent.variableAt (consistent : tree.Consistent settled) (id : VariableId) :
    (tree.variableAt id).Consistent settled := by
  unfold ScopeTree.variableAt
  cases known : tree.vars[id]? with
  | none => exact ⟨nofun, nofun, nofun⟩
  | some info => exact consistent info (Array.mem_of_getElem? known)

theorem Consistent.setVariable (consistent : tree.Consistent settled) (id : VariableId) {info : Variable}
    (fits : info.Consistent settled) : (tree.setVariable id info).Consistent settled := by
  intro other member
  obtain ⟨index, found⟩ := Array.mem_iff_getElem?.mp member
  rw [ScopeTree.setVariable, Array.getElem?_modify] at found
  split at found
  · obtain ⟨_, _, rfl⟩ := Option.map_eq_some_iff.mp found
    exact fits
  · exact consistent other (Array.mem_of_getElem? found)

theorem settleOpen_consistent (consistent : tree.Consistent settled) :
    (tree.mapVariables Variable.settleOpen).Consistent True := by
  intro info member
  obtain ⟨info, known, rfl⟩ := Array.mem_map.mp member
  exact Variable.settleOpen_consistent (consistent info known)

end ScopeTree

structure InferenceState.Consistent (settled : Prop) (state : InferenceState) : Prop where
  hierarchy : state.hierarchy.Consistent settled
  tree : state.tree.Consistent settled

namespace Inference

variable {state : InferenceState} {owner : TypeId} {name : String}

/-! ### Lessons -/

section

variable (consistent : state.Consistent settled)
include consistent

/-- A change is consistent if it is where walk and tree do not differ. -/
theorem advance_consistent {change : InferenceState → InferenceState}
    (keeps : (change state).Consistent settled) : (advance change state).2.Consistent settled :=
  advance_preserves (InferenceState.Consistent settled) consistent fun _ => keeps

theorem moveCursor_consistent (step : ScopeTree → Cursor → Except ScopeDrift Cursor) :
    (moveCursor step state).2.Consistent settled := by
  refine advance_consistent consistent ?_
  split
  · exact ⟨consistent.hierarchy, consistent.tree⟩
  · exact ⟨consistent.hierarchy, consistent.tree⟩

theorem updateVariable_consistent (id : VariableId) {learn : Hierarchy → Variable → Variable}
    (keeps : ∀ info : Variable, info.Consistent settled →
      (learn state.hierarchy info).Consistent settled) :
    (updateVariable id learn state).2.Consistent settled := by
  refine advance_consistent consistent ?_
  dsimp only
  split
  · exact consistent
  · exact ⟨consistent.hierarchy,
      consistent.tree.setVariable id (keeps _ (consistent.tree.variableAt id))⟩

theorem updateMethod_consistent {learn : Hierarchy → Method → Method}
    (keeps : ∀ {part : Prop} (method : Method), method.Consistent part →
      (learn state.hierarchy method).Consistent part) :
    (updateMethod owner name learn state).2.Consistent settled := by
  refine advance_consistent consistent ?_
  dsimp only
  split
  · exact consistent
  · rename_i before known
    split
    · exact consistent
    · have fits := (consistent.hierarchy owner).methods before (List.mem_of_find?_eq_some known)
      exact ⟨Hierarchy.update_consistent consistent.hierarchy
        (TypeInfo.updateMethod_consistent (consistent.hierarchy owner) fun _ _ => keeps before fits),
        consistent.tree⟩

theorem updateParam_consistent (place : Nat) {learn : Hierarchy → Variable → Variable}
    (keeps : ∀ {part : Prop} (info : Variable), info.Consistent part →
      (learn state.hierarchy info).Consistent part) :
    (updateParam owner name place learn state).2.Consistent settled := by
  refine updateMethod_consistent consistent fun method fits => ⟨fun param member => ?_, fits.result⟩
  rcases eq_or_eq_change_of_mem_modify member with old | ⟨old, known, rfl⟩
  · exact fits.params param old
  · exact keeps old (fits.params old known)

theorem observeValue_consistent {part : Prop} {info : Variable} (type : TypeId)
    (fits : info.Consistent part) :
    (info.observeValue state.hierarchy.union type).Consistent part :=
  Variable.observeValue_consistent consistent.hierarchy.union fits

theorem mergeParam_consistent (place : Nat) (id : VariableId) :
    (mergeParam owner name place id state).2.Consistent settled := by
  cases isKnown : ((state.hierarchy.info owner).method? name).bind fun method => method.params[place]? with
  | none =>
      rw [mergeParam_of_none id isKnown]
      exact consistent
  | some known =>
      obtain ⟨method, isMethod, isParam⟩ := Option.bind_eq_some_iff.mp isKnown
      have fits := ((consistent.hierarchy owner).methods method
        (List.mem_of_find?_eq_some isMethod)).params known (List.mem_of_getElem? isParam)
      rw [mergeParam_of_some id isKnown]
      have merged : (updateVariable id (fun hierarchy info => info.merge hierarchy.union known)
          state).2.Consistent settled := updateVariable_consistent consistent id fun info fits' =>
        Variable.merge_consistent consistent.hierarchy.union fits' fits.concrete
      exact updateParam_consistent merged place fun info fits' =>
        Variable.merge_consistent merged.hierarchy.union fits' (merged.tree.variableAt id).concrete

theorem recordAttributes_consistent (scope : ScopeId) :
    (recordAttributes owner scope state).2.Consistent settled := by
  have fits (attributes : List Attribute) (ids : List VariableId)
      (known : ∀ attr ∈ attributes, attr.type = .autoType → ¬ (settled ∧ owner.isConcrete = true)) :
      ∀ attr ∈ withInferredTypes state.tree attributes ids,
        attr.type = .autoType → ¬ (settled ∧ owner.isConcrete = true) := by
    induction attributes generalizing ids with
    | nil => exact known
    | cons attr attributes ih =>
        cases ids with
        | nil => exact known
        | cons id ids =>
            obtain ⟨first, later⟩ := List.forall_mem_cons.mp known
            rw [withInferredTypes]
            refine List.forall_mem_cons.mpr ⟨?_, ih ids later⟩
            split
            · rename_i inferred
              exact fun isAuto => absurd isAuto (TypeId.ne_autoType_of_isConcrete
                ((consistent.tree.variableAt id).concrete inferred))
            · exact first
  refine advance_consistent consistent ?_
  dsimp only
  split
  · exact consistent
  · have before := consistent.hierarchy owner
    exact ⟨Hierarchy.update_consistent consistent.hierarchy
      ⟨before.parent, fits _ _ before.attributes, before.methods⟩, consistent.tree⟩

theorem learn_consistent (lesson : Lesson) : (lesson.learn state).2.Consistent settled := by
  cases lesson with
  | hint id type =>
      exact updateVariable_consistent consistent id fun _ => Variable.observeHint_consistent
  | value id type =>
      exact updateVariable_consistent consistent id fun _ => observeValue_consistent consistent type
  | merge owner name place id => exact mergeParam_consistent consistent place id
  | argument owner name place type =>
      exact updateParam_consistent consistent place fun _ => observeValue_consistent consistent type
  | result owner name type =>
      exact updateMethod_consistent consistent fun _ fits =>
        ⟨fits.params, observeValue_consistent consistent type fits.result⟩
  | record owner scope => exact recordAttributes_consistent consistent scope

end

theorem Runs.consistent {marks : List ScopeMark} {before after : InferenceState}
    (runs : Runs marks before after) (consistent : before.Consistent settled) :
    after.Consistent settled := by
  induction runs with
  | done => exact consistent
  | move _ ih => exact ih (moveCursor_consistent consistent _)
  | learn lesson _ ih => exact ih (learn_consistent consistent lesson)

end Inference

end CoolLang
