import CoolLang.Proofs.Inference.Fixpoint
import CoolLang.Proofs.Scope.Sight

/-!
The visits of a walk. Between the scopes of classes and features, a walk of inference does nothing but move
its cursor: it visits the features of each class, in the scopes that the tree has for them, and then records
the attributes of the class. What composes, and holds of each visit and of moving the cursor, holds of the
whole walk (`Inference.inferClasses_visits`).
-/

namespace CoolLang

namespace Inference

/-- What a walk does between entering a scope and leaving it. -/
inductive Visit where
  | feature (owner : TypeId) (around scope : ScopeId) (feature : Feature)
  | record (owner : TypeId) (scope : ScopeId)

/-- Infers a feature whose scope has been entered. -/
def inferInside (current : TypeId) (around scope : ScopeId) : Feature → Inference Feature
  | .attribute decl => do
      let decl ← inferAttribute current around decl
      pure (Feature.attribute decl)
  | .method decl => do
      let decl ← inferMethod current scope decl
      pure (Feature.method decl)

/-- The state that a visit leads to. -/
def Visit.after : Visit → InferenceState → InferenceState
  | .feature owner around scope part, state => (inferInside owner around scope part state).2
  | .record owner scope, state => (recordAttributes owner scope state).2

/-- A state at a place among the children of a scope of a tree, with scopes ahead that the tree has there. -/
structure Facing (tree : ScopeTree) (scope : ScopeId) (place : Nat) (nests : List Nest)
    (state : InferenceState) : Prop where
  nodes : state.tree.nodes = tree.nodes
  noDrift : state.drift = none
  cursor : ∃ outer entered, state.cursor = ⟨⟨scope, place⟩, outer, entered⟩
  fits : ∃ ids behind, (tree.children scope).drop place = ids ++ behind ∧ Nest.AllAt tree place nests ids

/-- Whether a visit can be made in a state. -/
def Visit.Awaits (tree : ScopeTree) : Visit → InferenceState → Prop
  | .feature _ _ scope part, state => Facing tree scope 0 part.nests state
  | .record _ _, state => state.tree.nodes = tree.nodes ∧ state.drift = none

/-- The visits of features, the first of which has the scope at a place in that of their class. -/
def featureVisits (tree : ScopeTree) (owner : TypeId) (around : ScopeId) : Nat → List Feature → List Visit
  | _, [] => []
  | place, feature :: features =>
      .feature owner around (tree.child around place) feature ::
        featureVisits tree owner around (place + 1) features

/-- The visits of classes that have these types and scopes. -/
def classVisits (tree : ScopeTree) : List ClassDecl → ClassTypes → List ScopeId → List Visit
  | _ :: decls, none :: types, scopes => classVisits tree decls types scopes
  | decl :: decls, some type :: types, scope :: scopes =>
      featureVisits tree type scope 0 decl.features ++
        .record type scope :: classVisits tree decls types scopes
  | _, _, _ => []

/-- The visits of a walk over a program, in a tree that has the scopes of the program. -/
def visits (program : Program) (types : ClassTypes) (tree : ScopeTree) : List Visit :=
  classVisits tree program.classes types (tree.children ScopeTree.root)

variable {tree : ScopeTree} {state : InferenceState} {scope around : ScopeId} {place : Nat}
  {nests : List Nest} {outer : List CursorStep} {entered : Array ScopeId} {owner : TypeId}

/-! ### Cursors -/

theorem moveCursor_noDrift {step : ScopeTree → Cursor → Except ScopeDrift Cursor}
    (noDrift : (moveCursor step state).2.drift = none) :
    ∃ cursor, (moveCursor step state).2 = { state with cursor := cursor } := by
  by_cases started : state.drift = none
  · rw [moveCursor, advance_of_none started] at noDrift ⊢
    dsimp only at noDrift ⊢
    split at noDrift
    · exact ⟨_, rfl⟩
    · cases noDrift
  · rw [moveCursor, advance_of_drift started]
    exact ⟨state.cursor, rfl⟩

theorem openScope_eq (nodes : state.tree.nodes = tree.nodes) (noDrift : state.drift = none)
    (isCursor : state.cursor = ⟨⟨around, place⟩, outer, entered⟩)
    (isNext : (tree.children around)[place]? = some scope) (index : tree.index scope = place) :
    openScope state = (scope, { state with
      cursor := ⟨⟨scope, 0⟩, ⟨around, place + 1⟩ :: outer, entered.push scope⟩ }) := by
  have moved := Cursor.moves_of_nodes nodes state.cursor [.enter]
  rw [isCursor, Cursor.moves_cons, Cursor.moves_cons, Cursor.move, Cursor.move,
    Cursor.enter_eq_ok isNext index] at moved
  have entered : Cursor.enter state.tree ⟨⟨around, place⟩, outer, entered⟩ =
      .ok ⟨⟨scope, 0⟩, ⟨around, place + 1⟩ :: outer, entered.push scope⟩ := by
    cases result : Cursor.enter state.tree ⟨⟨around, place⟩, outer, entered⟩ with
    | error drift =>
        rw [result] at moved
        cases moved
    | ok next =>
        rw [result] at moved
        exact congrArg Except.ok (Except.ok.inj moved)
  change ((moveCursor Cursor.enter state).2.cursor.current, (moveCursor Cursor.enter state).2) = _
  rw [moveCursor, advance_of_none noDrift, isCursor]
  simp only [entered]
  rfl

namespace Facing

theorem guided (facing : Facing tree scope place nests state) : Guided (Nest.marksAll nests) state := by
  obtain ⟨nodes, noDrift, ⟨outer, entered, isCursor⟩, ids, behind, left, fits⟩ := facing
  have moved : Cursor.moves tree ⟨⟨scope, place⟩, outer, entered⟩ (Nest.marksAll nests) = .ok _ :=
    Nest.moves_marksAll nests behind left fits
  exact ⟨noDrift, _, (Cursor.moves_of_nodes nodes _ _).trans (isCursor ▸ moved)⟩

end Facing

/-! ### Walks -/

section

variable {relation : List Visit → InferenceState → InferenceState → Prop}
  (moves : ∀ state cursor, relation [] state { state with cursor := cursor })
include moves

theorem moveCursor_visits {step : ScopeTree → Cursor → Except ScopeDrift Cursor}
    (noDrift : (moveCursor step state).2.drift = none) : relation [] state (moveCursor step state).2 := by
  obtain ⟨cursor, moved⟩ := moveCursor_noDrift noDrift
  rw [moved]
  exact moves state cursor

variable [Composes relation]

theorem inferFeature_visits {feature : Feature}
    (each : ∀ state, Facing tree scope 0 feature.nests state →
      relation [.feature owner around scope feature] state
        ((Visit.feature owner around scope feature).after state))
    (nodes : state.tree.nodes = tree.nodes) (noDrift : state.drift = none)
    (isCursor : state.cursor = ⟨⟨around, place⟩, outer, entered⟩)
    (isNext : (tree.children around)[place]? = some scope) (index : tree.index scope = place)
    (fits : (Nest.scope feature.nests).At tree scope) :
    let after := (inferFeature owner around feature state).2
    relation [.feature owner around scope feature] state after ∧ after.tree.nodes = tree.nodes ∧
      after.drift = none ∧ ∃ entered, after.cursor = ⟨⟨around, place + 1⟩, outer, entered⟩ := by
  intro after
  have moved : Cursor.moves tree ⟨⟨around, place⟩, outer, entered⟩ (Nest.scope feature.nests).marks = .ok _ :=
    Nest.moves_marks (.scope feature.nests) isNext index fits
  obtain ⟨noDrift', isLast, nodes'⟩ : after.drift = none ∧ after.cursor = _ ∧ after.tree.nodes = _ :=
    (inferFeature_runs owner around feature state).1.moves noDrift
      ((Cursor.moves_of_nodes nodes _ _).trans (isCursor ▸ moved))
  have opened := openScope_eq nodes noDrift isCursor isNext index
  generalize isInner : ({ state with cursor := ⟨⟨scope, 0⟩, ⟨around, place + 1⟩ :: outer,
    entered.push scope⟩ } : InferenceState) = inner at opened
  have unfolded : after = (closeScope
      ((Visit.feature owner around (openScope state).1 feature).after (openScope state).2)).2 := by
    rcases feature with decl | decl <;> rfl
  clear_value after
  rw [opened] at unfolded
  rw [Nest.At] at fits
  have facing : Facing tree scope 0 feature.nests inner :=
    isInner ▸ ⟨nodes, noDrift, ⟨_, _, rfl⟩, _, [], (List.append_nil _).symm, fits⟩
  have first : relation [] state inner := isInner ▸ moves state _
  refine ⟨?_, nodes'.trans nodes, noDrift', _, isLast⟩
  rw [unfolded] at noDrift' ⊢
  have last := moveCursor_visits moves noDrift'
  exact Composes.trans first (Composes.trans (each inner facing) last)

theorem inferFeatures_visits {features : List Feature} {ids : List ScopeId}
    (each : ∀ visit ∈ featureVisits tree owner around place features, ∀ state, visit.Awaits tree state →
      relation [visit] state (visit.after state))
    (nodes : state.tree.nodes = tree.nodes) (noDrift : state.drift = none)
    (isCursor : state.cursor = ⟨⟨around, place⟩, outer, entered⟩)
    (left : (tree.children around).drop place = ids)
    (fits : Nest.AllAt tree place (features.map fun feature => .scope feature.nests) ids) :
    let after := (inferFeatures owner around features state).2
    relation (featureVisits tree owner around place features) state after ∧ after.tree.nodes = tree.nodes ∧
      after.drift = none ∧
      ∃ entered, after.cursor = ⟨⟨around, place + features.length⟩, outer, entered⟩ := by
  induction features generalizing place ids state entered with
  | nil => exact ⟨Composes.refl _, nodes, noDrift, entered, isCursor⟩
  | cons feature features ih =>
      obtain _ | ⟨scope, ids⟩ := ids
      · exact fits.elim
      · obtain ⟨index, first, later⟩ := fits
        obtain ⟨isNext, rest⟩ := next_of_drop left
        have isChild := ScopeTree.child_of_getElem? isNext
        rw [featureVisits, isChild] at each ⊢
        obtain ⟨ofFirst, ofLater⟩ := List.forall_mem_cons.mp each
        obtain ⟨one, nodes, noDrift, entered, isCursor⟩ :=
          inferFeature_visits moves ofFirst nodes noDrift isCursor isNext index first
        obtain ⟨two, nodes, noDrift, entered, isCursor⟩ := ih ofLater nodes noDrift isCursor rest later
        refine ⟨Composes.trans one two, nodes, noDrift, entered, ?_⟩
        rw [List.length_cons, Nat.add_comm features.length, ← Nat.add_assoc]
        exact isCursor

theorem inferClass_visits {decl : ClassDecl}
    (each : ∀ visit ∈ featureVisits tree owner scope 0 decl.features ++ [.record owner scope],
      ∀ state, visit.Awaits tree state → relation [visit] state (visit.after state))
    (nodes : state.tree.nodes = tree.nodes) (noDrift : state.drift = none)
    (isCursor : state.cursor = ⟨⟨around, place⟩, outer, entered⟩)
    (isNext : (tree.children around)[place]? = some scope) (index : tree.index scope = place)
    (fits : (Nest.scope decl.nests).At tree scope) :
    let after := (inferClass owner decl state).2
    relation (featureVisits tree owner scope 0 decl.features ++ [.record owner scope]) state after ∧
      after.tree.nodes = tree.nodes ∧ after.drift = none ∧
      ∃ entered, after.cursor = ⟨⟨around, place + 1⟩, outer, entered⟩ := by
  intro after
  have moved : Cursor.moves tree ⟨⟨around, place⟩, outer, entered⟩ (Nest.scope decl.nests).marks = .ok _ :=
    Nest.moves_marks (.scope decl.nests) isNext index fits
  obtain ⟨noDrift', isLast, nodes'⟩ : after.drift = none ∧ after.cursor = _ ∧ after.tree.nodes = _ :=
    (inferClass_runs owner decl state).1.moves noDrift ((Cursor.moves_of_nodes nodes _ _).trans (isCursor ▸ moved))
  have opened := openScope_eq nodes noDrift isCursor isNext index
  generalize isInner : ({ state with cursor := ⟨⟨scope, 0⟩, ⟨around, place + 1⟩ :: outer,
    entered.push scope⟩ } : InferenceState) = inner at opened
  have unfolded : after = (closeScope (recordAttributes owner (openScope state).1
      (inferFeatures owner (openScope state).1 decl.features (openScope state).2).2).2).2 := rfl
  clear_value after
  rw [opened] at unfolded
  rw [Nest.At] at fits
  obtain ⟨ofFeatures, ofRecord⟩ := List.forall_mem_append.mp each
  have first : relation [] state inner := isInner ▸ moves state _
  have isCursor' : inner.cursor = ⟨⟨scope, 0⟩, ⟨around, place + 1⟩ :: outer, entered.push scope⟩ := by
    rw [← isInner]
  obtain ⟨inside, nodes'', noDrift'', _⟩ := inferFeatures_visits moves ofFeatures
    (isInner ▸ nodes : inner.tree.nodes = tree.nodes) (isInner ▸ noDrift : inner.drift = none) isCursor' rfl fits
  have recorded := List.forall_mem_singleton.mp ofRecord _ ⟨nodes'', noDrift''⟩
  refine ⟨?_, nodes'.trans nodes, noDrift', _, isLast⟩
  rw [unfolded] at noDrift' ⊢
  have last := moveCursor_visits moves noDrift'
  exact Composes.trans (Composes.trans first inside) (Composes.trans recorded last)

/-- What composes, and holds of the visits of some classes and of moving the cursor, holds of the walk over
these classes. -/
theorem inferClasses_visits {decls : List ClassDecl} {types : ClassTypes} {ids : List ScopeId}
    (each : ∀ visit ∈ classVisits tree decls types ids, ∀ state, visit.Awaits tree state →
      relation [visit] state (visit.after state))
    (nodes : state.tree.nodes = tree.nodes) (noDrift : state.drift = none)
    (isCursor : state.cursor = ⟨⟨ScopeTree.root, place⟩, outer, entered⟩)
    (left : (tree.children ScopeTree.root).drop place = ids)
    (fits : Nest.AllAt tree place (Program.nests ⟨decls⟩ types) ids) :
    relation (classVisits tree decls types ids) state (inferClasses decls types state).2 := by
  induction decls generalizing types ids place state entered with
  | nil => exact Composes.refl _
  | cons decl decls ih =>
      rcases types with _ | ⟨_ | type, types⟩
      · exact Composes.refl _
      · exact ih each nodes noDrift isCursor left fits
      · rw [show Program.nests ⟨decl :: decls⟩ (some type :: types) =
          .scope decl.nests :: Program.nests ⟨decls⟩ types from rfl] at fits
        obtain _ | ⟨scope, ids⟩ := ids
        · exact fits.elim
        · obtain ⟨index, first, later⟩ := fits
          obtain ⟨isNext, rest⟩ := next_of_drop left
          rw [classVisits, List.append_cons] at each ⊢
          obtain ⟨ofFirst, ofLater⟩ := List.forall_mem_append.mp each
          obtain ⟨one, nodes, noDrift, entered, isCursor⟩ :=
            inferClass_visits moves ofFirst nodes noDrift isCursor isNext index first
          exact Composes.trans one (ih ofLater nodes noDrift isCursor rest later)

end

/-- A walk over a tree that has the scopes of the program makes its visits. -/
theorem walk_visits {program : Program} {types : ClassTypes}
    {relation : List Visit → InferenceState → InferenceState → Prop} [Composes relation]
    (moves : ∀ state cursor, relation [] state { state with cursor := cursor })
    (outline : state.tree.skeleton = Nest.outline (program.nests types)) (noDrift : state.drift = none)
    (ended : (walk types program state).2.drift = none)
    (each : ∀ visit ∈ visits program types state.tree, ∀ reached, visit.Awaits state.tree reached →
      relation [visit] reached (visit.after reached)) :
    relation (visits program types state.tree) { state with cursor := .initial, changed := false }
      (walk types program state).2 := by
  have fits := (Nest.outline_at (program.nests types)).1
  rw [← outline, Nest.at_skeleton, Nest.At] at fits
  have begun : (beginWalk state).2 = { state with cursor := .initial, changed := false } :=
    beginWalk_of_none noDrift
  rw [walk_last ended, begun]
  exact inferClasses_visits moves each rfl noDrift rfl rfl fits

end Inference

end CoolLang
