import CoolLang.Proofs.Analysis.Convergence

/-!
The types of attributes. Inference records the types of variables for them, so whatever it learns, an attribute
keeps its type or gets one that classes have (`Inference.fills_of_passes`).
-/

namespace CoolLang

/-- Whether each attribute is as it has been, or has a type such as classes have. -/
def Hierarchy.Fills (before after : Hierarchy) : Prop :=
  ∀ owner, ∀ attr ∈ (after.info owner).attributes,
    attr ∈ (before.info owner).attributes ∨ attr.type.isConcrete = true

namespace Hierarchy

variable {before between after hierarchy : Hierarchy}

theorem fills_of_attributes (same : ∀ owner, (after.info owner).attributes = (before.info owner).attributes) :
    before.Fills after :=
  fun owner _ member => Or.inl (same owner ▸ member)

theorem fills_refl (hierarchy : Hierarchy) : hierarchy.Fills hierarchy :=
  fills_of_attributes fun _ => rfl

theorem Fills.trans (one : before.Fills between) (two : between.Fills after) : before.Fills after :=
  fun owner attr member => (two owner attr member).elim (one owner attr) Or.inr

theorem fills_update {owner : TypeId} {change : TypeInfo → TypeInfo}
    (fills : ∀ attr ∈ (change (hierarchy.info owner)).attributes,
      attr ∈ (hierarchy.info owner).attributes ∨ attr.type.isConcrete = true) :
    hierarchy.Fills (hierarchy.update owner change) := by
  intro other attr member
  rw [info_update_eq] at member
  split at member
  · rename_i changed
    obtain ⟨rfl, _⟩ := changed
    exact fills attr member
  · exact Or.inl member

/-- What is left open gets the type `Object`. -/
theorem fills_settleOpen (hierarchy : Hierarchy) : hierarchy.Fills hierarchy.settleOpen := by
  refine List.foldlRecOn (motive := hierarchy.Fills) _ _ hierarchy.fills_refl fun current fills owner _ => ?_
  refine fills.trans (fills_update fun attr member => ?_)
  obtain ⟨old, isOld, rfl⟩ := List.mem_map.mp member
  unfold Attribute.settleOpen
  split
  · exact Or.inr rfl
  · exact Or.inl isOld

end Hierarchy

namespace Inference

variable {settled : Prop} {state before after : InferenceState}

theorem fills_updateVariable (id : VariableId) (learn : Hierarchy → Variable → Variable) :
    state.hierarchy.Fills (updateVariable id learn state).2.hierarchy := by
  refine advance_preserves (fun after => state.hierarchy.Fills after.hierarchy) (Hierarchy.fills_refl _) fun _ => ?_
  dsimp only
  split <;> exact Hierarchy.fills_refl _

theorem fills_updateMethod (owner : TypeId) (name : String) (learn : Hierarchy → Method → Method) :
    state.hierarchy.Fills (updateMethod owner name learn state).2.hierarchy := by
  refine advance_preserves (fun after => state.hierarchy.Fills after.hierarchy) (Hierarchy.fills_refl _) fun _ => ?_
  dsimp only
  split
  · exact Hierarchy.fills_refl _
  · split
    · exact Hierarchy.fills_refl _
    · exact Hierarchy.fills_of_attributes fun other => attributes_updateMethod ..

/-- An attribute that is recorded gets the type of a variable that has been inferred. -/
theorem fills_recordAttributes (consistent : state.Consistent settled) (owner : TypeId) (scope : ScopeId) :
    state.hierarchy.Fills (recordAttributes owner scope state).2.hierarchy := by
  have recorded (attributes : List Attribute) (ids : List VariableId) :
      ∀ attr ∈ withInferredTypes state.tree attributes ids, attr ∈ attributes ∨ attr.type.isConcrete = true := by
    induction attributes generalizing ids with
    | nil => exact nofun
    | cons first attributes ih =>
        obtain _ | ⟨id, ids⟩ := ids
        · exact fun attr member => Or.inl member
        · refine List.forall_mem_cons.mpr ⟨?_, fun attr member => (ih ids attr member).imp_left (List.mem_cons_of_mem _)⟩
          split
          · rename_i inferred
            exact Or.inr ((consistent.tree.variableAt id).concrete inferred)
          · exact Or.inl List.mem_cons_self
  refine advance_preserves (fun after => state.hierarchy.Fills after.hierarchy) (Hierarchy.fills_refl _) fun _ => ?_
  dsimp only
  split
  · exact Hierarchy.fills_refl _
  · exact Hierarchy.fills_update (recorded _ _)

theorem fills_learn (consistent : state.Consistent settled) (lesson : Lesson) :
    state.hierarchy.Fills (lesson.learn state).2.hierarchy := by
  cases lesson with
  | hint | value => exact fills_updateVariable _ _
  | argument | result => exact fills_updateMethod _ _ _
  | record owner scope => exact fills_recordAttributes consistent owner scope
  | merge owner name place id =>
      change state.hierarchy.Fills (mergeParam owner name place id state).2.hierarchy
      cases isKnown : ((state.hierarchy.info owner).method? name).bind fun method => method.params[place]? with
      | none =>
          rw [mergeParam_of_none id isKnown]
          exact Hierarchy.fills_refl _
      | some known =>
          rw [mergeParam_of_some id isKnown]
          exact (fills_updateVariable id _).trans (fills_updateMethod owner name _)

theorem hierarchy_moveCursor (step : ScopeTree → Cursor → Except ScopeDrift Cursor) :
    (moveCursor step state).2.hierarchy = state.hierarchy := by
  refine advance_preserves (fun after => after.hierarchy = state.hierarchy) rfl fun _ => ?_
  split <;> rfl

theorem Runs.fills {marks : List ScopeMark} (runs : Runs marks before after) (consistent : before.Consistent settled) :
    before.hierarchy.Fills after.hierarchy := by
  induction runs with
  | done => exact Hierarchy.fills_refl _
  | move _ ih => exact @hierarchy_moveCursor _ _ ▸ ih (moveCursor_consistent consistent _)
  | learn lesson _ ih => exact (fills_learn consistent lesson).trans (ih (learn_consistent consistent lesson))

/-! ### Passes -/

variable {base : Hierarchy} {types : ClassTypes} {classes : List (TypeId × ScopeId)} {left right : Program × InferenceState}

theorem Passes.fills (passes : Passes types left right) (standing : Standing base types left) :
    left.2.hierarchy.Fills right.2.hierarchy := by
  cases passes with
  | walk =>
      obtain ⟨program, state⟩ := left
      obtain ⟨_, noDrift, _⟩ := walk_spec standing.outline standing.noDrift
      have begun : (beginWalk state).2 = { state with cursor := .initial, changed := false } :=
        beginWalk_of_none standing.noDrift
      have runs := (inferClasses_runs program.classes types (beginWalk state).2).1
      rw [← walk_last noDrift] at runs
      have consistent : (beginWalk state).2.Consistent False := by
        rw [begun]
        exact ⟨standing.sound.consistent.hierarchy, standing.sound.consistent.tree⟩
      have fills := runs.fills consistent
      rw [begun] at fills
      exact fills
  | settle =>
      change left.2.hierarchy.Fills (settleOpen left.2).2.hierarchy
      rw [settleOpen_of_none standing.noDrift]
      exact left.2.hierarchy.fills_settleOpen

/-- However many walks there are, attributes keep their types or get some that classes have. -/
theorem fills_of_passes (passes : Relation.ReflTransGen (Passes types) left right)
    (enrolled : Enrolled base types left.2.tree classes) (standing : Standing base types left) :
    left.2.hierarchy.Fills right.2.hierarchy := by
  induction passes with
  | refl => exact Hierarchy.fills_refl _
  | tail before last ih => exact ih.trans (last.fills (ascends_of_passes before enrolled standing).2.1)

end Inference

end CoolLang
