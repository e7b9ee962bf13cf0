import CoolLang.Proofs.Hierarchy.Distinct
import CoolLang.Proofs.Inference.Advance
import CoolLang.Proofs.Inference.Invariant
import CoolLang.Proofs.Inference.Learning
import CoolLang.Proofs.Typing.Building
import Mathlib.Algebra.GroupWithZero.Nat
import Mathlib.Algebra.Order.BigOperators.Group.List
import Mathlib.Algebra.Order.Group.Nat

/-!
Progress of inference. The room that all declarations have left, together with the number of attributes
that lag behind their variables, gets smaller with each lesson that changes anything
(`Inference.learn_progress`).
-/

namespace CoolLang

/-- Changing one of many changes their sum by as much as it changes that one. -/
theorem sum_map_modify {α : Type} (weight : α → Nat) (change : α → α) {items : List α} {place : Nat}
    {item : α} (known : items[place]? = some item) :
    ((items.modify place change).map weight).sum + weight item =
      (items.map weight).sum + weight (change item) := by
  induction items generalizing place with
  | nil => cases known
  | cons first items ih =>
      cases place with
      | zero =>
          cases known
          rw [List.modify_zero_cons, List.map_cons, List.sum_cons, List.map_cons, List.sum_cons]
          omega
      | succ place =>
          have later := @ih place known
          rw [List.modify_succ_cons, List.map_cons, List.sum_cons, List.map_cons, List.sum_cons]
          omega

def TypeInfo.room (hierarchy : Hierarchy) (info : TypeInfo) : Nat :=
  (info.methods.map (Method.room hierarchy)).sum

def ScopeTree.room (hierarchy : Hierarchy) (tree : ScopeTree) : Nat :=
  (tree.vars.toList.map (Variable.room hierarchy)).sum

/-- The room that all signatures of a hierarchy have left, seen from another one. -/
def Hierarchy.room (base hierarchy : Hierarchy) : Nat :=
  (hierarchy.types.toList.map (TypeInfo.room base)).sum

namespace Inference

/-- The number of attributes that differ from what has been inferred for their variables. -/
def lag (tree : ScopeTree) : List Attribute → List VariableId → Nat
  | attr :: attributes, id :: ids =>
      (if (tree.variableAt id).inferred = true ∧ attr.type ≠ (tree.variableAt id).type then 1 else 0) +
        lag tree attributes ids
  | _, _ => 0

variable {tree : ScopeTree} {attributes : List Attribute} {ids : List VariableId}

theorem lag_le (tree : ScopeTree) (attributes : List Attribute) (ids : List VariableId) :
    lag tree attributes ids ≤ attributes.length := by
  induction attributes generalizing ids with
  | nil => exact Nat.le_refl 0
  | cons attr attributes ih =>
      cases ids with
      | nil => exact Nat.zero_le _
      | cons id ids =>
          have later := @ih ids
          rw [lag, List.length_cons]
          split <;> omega

theorem withInferredTypes_eq_self (upToDate : lag tree attributes ids = 0) :
    withInferredTypes tree attributes ids = attributes := by
  induction attributes generalizing ids with
  | nil => rfl
  | cons attr attributes ih =>
      cases ids with
      | nil => rfl
      | cons id ids =>
          rw [lag] at upToDate
          have later := @ih ids (by omega)
          rw [withInferredTypes, later]
          congr 1
          split
          · rename_i inferred
            by_contra differs
            rw [if_pos ⟨inferred, fun same => differs (by rw [← same])⟩] at upToDate
            omega
          · rfl

theorem lag_withInferredTypes (tree : ScopeTree) (attributes : List Attribute) (ids : List VariableId) :
    lag tree (withInferredTypes tree attributes ids) ids = 0 := by
  induction attributes generalizing ids with
  | nil => rfl
  | cons attr attributes ih =>
      cases ids with
      | nil => rfl
      | cons id ids =>
          rw [withInferredTypes, lag, ih, if_neg]
          rintro ⟨inferred, differs⟩
          rw [if_pos inferred] at differs
          exact differs rfl

theorem withInferredTypes_valid {size : Nat} (ofVariables : ∀ id, (tree.variableAt id).type.index < size)
    (valid : ∀ attr ∈ attributes, attr.type.Valid False size) :
    ∀ attr ∈ withInferredTypes tree attributes ids, attr.type.Valid False size := by
  induction attributes generalizing ids with
  | nil => exact valid
  | cons attr attributes ih =>
      cases ids with
      | nil => exact valid
      | cons id ids =>
          obtain ⟨first, later⟩ := List.forall_mem_cons.mp valid
          rw [withInferredTypes]
          refine List.forall_mem_cons.mpr ⟨?_, ih later⟩
          split
          · exact ⟨ofVariables id, False.elim⟩
          · exact first

theorem map_withInferredTypes {α : Type} (keep : Attribute → α)
    (same : ∀ attr type, keep { attr with type := type } = keep attr) (tree : ScopeTree)
    (attributes : List Attribute) (ids : List VariableId) :
    (withInferredTypes tree attributes ids).map keep = attributes.map keep := by
  induction attributes generalizing ids with
  | nil => rfl
  | cons attr attributes ih =>
      cases ids with
      | nil => rfl
      | cons id ids =>
          rw [withInferredTypes, List.map_cons, ih, List.map_cons]
          split
          · rw [same]
          · rfl

theorem length_withInferredTypes (tree : ScopeTree) (attributes : List Attribute)
    (ids : List VariableId) : (withInferredTypes tree attributes ids).length = attributes.length := by
  have same := congrArg List.length (map_withInferredTypes (fun _ => ()) (fun _ _ => rfl) tree attributes ids)
  rwa [List.length_map, List.length_map] at same

end Inference

/-! ### States -/

namespace InferenceState

/-- What a state of inference keeps that has started with a hierarchy. -/
structure Sound (base : Hierarchy) (state : InferenceState) : Prop where
  alike : state.hierarchy.Alike base
  consistent : state.Consistent False
  valid : state.hierarchy.Valid False
  distinct : state.hierarchy.Distinct
  known : state.tree.Known base.types.size

/-- How what is known of all declarations can change from one state to a later one. -/
structure Advances (base : Hierarchy) (before after : InferenceState) : Prop where
  alike : after.hierarchy.Alike before.hierarchy
  nodes : after.tree.nodes = before.tree.nodes
  size : after.tree.vars.size = before.tree.vars.size
  slots : ∀ id, (before.tree.variableAt id).Advances base (after.tree.variableAt id)
  methods : ∀ owner, List.Forall₂ (Method.Advances base)
    (before.hierarchy.info owner).methods (after.hierarchy.info owner).methods
  attributes : ∀ owner, (after.hierarchy.info owner).attributes.map
      (fun attr => (attr.name, attr.position)) =
    (before.hierarchy.info owner).attributes.map fun attr => (attr.name, attr.position)

/-- The number of attributes of some classes that lag behind their variables. -/
def lag (classes : List (TypeId × ScopeId)) (state : InferenceState) : Nat :=
  (classes.map fun (owner, scope) =>
    Inference.lag state.tree (state.hierarchy.info owner).attributes (state.tree.locals scope)).sum

def attributeCount (classes : List (TypeId × ScopeId)) (state : InferenceState) : Nat :=
  (classes.map fun (owner, _) => (state.hierarchy.info owner).attributes.length).sum

/-- What gets smaller as inference goes on. No change of a variable makes more attributes lag behind than
there are. -/
def measure (base : Hierarchy) (classes : List (TypeId × ScopeId)) (state : InferenceState) : Nat :=
  (state.tree.room base + base.room state.hierarchy) * (state.attributeCount classes + 1) +
    state.lag classes

/-- What some steps of a walk have come to. -/
structure Progress (base : Hierarchy) (classes : List (TypeId × ScopeId)) (before after : InferenceState) :
    Prop where
  sound : after.Sound base
  advances : before.Advances base after
  shrinks : (after.hierarchy = before.hierarchy ∧ after.tree = before.tree ∧
      after.changed = before.changed) ∨
    after.measure base classes < before.measure base classes

variable {base : Hierarchy} {classes : List (TypeId × ScopeId)} {state before between after : InferenceState}

theorem lag_le (classes : List (TypeId × ScopeId)) (state : InferenceState) :
    state.lag classes ≤ state.attributeCount classes :=
  List.sum_le_sum fun _ _ => Inference.lag_le _ _ _

/-- Less room makes the measure smaller, whatever lags behind. -/
theorem measure_lt (room : after.tree.room base + base.room after.hierarchy <
      before.tree.room base + base.room before.hierarchy)
    (count : after.attributeCount classes = before.attributeCount classes) :
    after.measure base classes < before.measure base classes := by
  have lagging := after.lag_le classes
  have more := Nat.mul_le_mul_right (before.attributeCount classes + 1) (Nat.succ_le_of_lt room)
  rw [count] at lagging
  rw [measure, measure, count]
  rw [Nat.succ_mul] at more
  omega

theorem Sound.slot (sound : state.Sound base) (positive : 0 < base.types.size) (id : VariableId) :
    (state.tree.variableAt id).Placed base :=
  ⟨sound.known.variableAt positive id, (sound.consistent.tree.variableAt id).concrete⟩

theorem Sound.method (sound : state.Sound base) {owner : TypeId} {method : Method}
    (member : method ∈ (state.hierarchy.info owner).methods) : method.Placed base := by
  have valid := (sound.valid owner).methods method member
  have consistent := (sound.consistent.hierarchy owner).methods method member
  rw [sound.alike.size] at valid
  exact ⟨fun param isParam => ⟨(valid.params param isParam).1.known,
    (consistent.params param isParam).concrete⟩, valid.result.known, consistent.result.concrete⟩

theorem Sound.of_same (sound : state.Sound base) (hierarchy : after.hierarchy = state.hierarchy)
    (tree : after.tree = state.tree) : after.Sound base :=
  ⟨hierarchy ▸ sound.alike, ⟨hierarchy ▸ sound.consistent.hierarchy, tree ▸ sound.consistent.tree⟩,
    hierarchy ▸ sound.valid, hierarchy ▸ sound.distinct, tree ▸ sound.known⟩

theorem measure_congr (base : Hierarchy) (classes : List (TypeId × ScopeId))
    (hierarchy : after.hierarchy = before.hierarchy) (tree : after.tree = before.tree) :
    after.measure base classes = before.measure base classes := by
  rw [measure, measure, attributeCount, attributeCount, lag, lag, hierarchy, tree]

section

variable (rooted : base.Rooted)
include rooted

theorem Sound.gives (sound : state.Sound base) :
    state.hierarchy.Gives (TypeId.Absolute base.types.size) := by
  rw [← sound.alike.size]
  exact Hierarchy.gives_absolute (sound.alike.symm.rooted rooted) sound.valid

theorem methods_refl (sound : state.Sound base) (owner : TypeId) :
    List.Forall₂ (Method.Advances base) (state.hierarchy.info owner).methods
      (state.hierarchy.info owner).methods :=
  List.forall₂_same.mpr fun _ member => .refl rooted (sound.method member)

theorem slots_refl (sound : state.Sound base) (id : VariableId) :
    (state.tree.variableAt id).Advances base (state.tree.variableAt id) :=
  .refl rooted (sound.slot rooted.positive id)

theorem Advances.refl (sound : state.Sound base) : state.Advances base state :=
  ⟨.refl _, rfl, rfl, slots_refl rooted sound, methods_refl rooted sound, fun _ => rfl⟩

theorem Advances.trans (sound : before.Sound base) (one : before.Advances base between)
    (two : between.Advances base after) : before.Advances base after where
  alike := two.alike.trans one.alike
  nodes := two.nodes.trans one.nodes
  size := two.size.trans one.size
  slots id := (one.slots id).trans rooted
    (sound.slot rooted.positive id) (two.slots id)
  methods owner := by
    have first := one.methods owner
    have second := two.methods owner
    have placed : ∀ method ∈ (before.hierarchy.info owner).methods, method.Placed base :=
      fun _ member => sound.method member
    generalize (before.hierarchy.info owner).methods = methods at first placed
    generalize (between.hierarchy.info owner).methods = methods' at first second
    generalize (after.hierarchy.info owner).methods = methods'' at second
    induction first generalizing methods'' with
    | nil => exact second
    | cons advance _ ih =>
        cases second with
        | cons advance' later =>
            obtain ⟨isPlaced, arePlaced⟩ := List.forall_mem_cons.mp placed
            exact .cons (advance.trans rooted isPlaced advance') (ih arePlaced _ later)
  attributes owner := (two.attributes owner).trans (one.attributes owner)

theorem Progress.refl (sound : state.Sound base) : state.Progress base classes state :=
  ⟨sound, .refl rooted sound, Or.inl ⟨rfl, rfl, rfl⟩⟩

theorem Advances.of_same (sound : state.Sound base) (hierarchy : after.hierarchy = state.hierarchy)
    (tree : after.tree = state.tree) : state.Advances base after := by
  have same := Advances.refl rooted sound
  exact ⟨hierarchy ▸ same.alike, tree ▸ same.nodes, tree ▸ same.size, fun id => tree ▸ same.slots id,
    fun owner => hierarchy ▸ same.methods owner, fun owner => hierarchy ▸ same.attributes owner⟩

/-- A state that differs in the cursor only. -/
theorem Progress.of_same (sound : state.Sound base) (hierarchy : after.hierarchy = state.hierarchy)
    (tree : after.tree = state.tree) (changed : after.changed = state.changed) :
    state.Progress base classes after :=
  ⟨sound.of_same hierarchy tree, .of_same rooted sound hierarchy tree, Or.inl ⟨hierarchy, tree, changed⟩⟩

theorem Progress.trans (sound : before.Sound base) (one : before.Progress base classes between)
    (two : between.Progress base classes after) : before.Progress base classes after := by
  refine ⟨two.sound, one.advances.trans rooted sound two.advances, ?_⟩
  rcases one.shrinks with ⟨hierarchy, tree, changed⟩ | less
  · rcases two.shrinks with ⟨hierarchy', tree', changed'⟩ | less'
    · exact Or.inl ⟨hierarchy'.trans hierarchy, tree'.trans tree, changed'.trans changed⟩
    · exact Or.inr (measure_congr base classes hierarchy tree ▸ less')
  · rcases two.shrinks with ⟨hierarchy', tree', _⟩ | less'
    · exact Or.inr (measure_congr base classes hierarchy' tree' ▸ less)
    · exact Or.inr (Nat.lt_trans less' less)

end

end InferenceState

/-! ### Lessons -/

theorem ScopeTree.room_setVariable (base : Hierarchy) (tree : ScopeTree) {id : VariableId}
    (known : id < tree.vars.size) (info : Variable) :
    (tree.setVariable id info).room base + (tree.variableAt id).room base =
      tree.room base + info.room base := by
  have isKnown : tree.vars.toList[id]? = some (tree.variableAt id) := by
    rw [Array.getElem?_toList, variableAt, Array.getElem?_eq_getElem known]
    rfl
  rw [room, setVariable, Array.toList_modify]
  exact sum_map_modify (Variable.room base) (fun _ => info) isKnown

theorem Hierarchy.room_update (base hierarchy : Hierarchy) {owner : TypeId}
    (known : owner.index < hierarchy.types.size) (change : TypeInfo → TypeInfo) :
    base.room (hierarchy.update owner change) + (hierarchy.info owner).room base =
      base.room hierarchy + (change (hierarchy.info owner)).room base := by
  have isKnown : hierarchy.types.toList[owner.index]? = some (hierarchy.info owner) := by
    rw [Array.getElem?_toList, info, Array.getElem?_eq_getElem known]
    rfl
  rw [room, update, Array.toList_modify]
  exact sum_map_modify (TypeInfo.room base) change isKnown

namespace Inference

open InferenceState

variable {base : Hierarchy} {classes : List (TypeId × ScopeId)} {state : InferenceState} {owner : TypeId}
  {name : String}

/-- Declarations that have learned have types that a signature can have. -/
theorem learned_valid {before after : Variable} (placed : after.Placed base)
    (advances : before.Advances base after)
    (valid : before.type.Valid False base.types.size ∧ before.type ≠ .selfType) :
    after.type.Valid False base.types.size ∧ after.type ≠ .selfType := by
  cases resolved : after.inferred with
  | false =>
      rw [advances.waits resolved]
      exact valid
  | true => exact ⟨⟨placed.known, nofun⟩, TypeId.ne_selfType_of_isConcrete (placed.concrete resolved)⟩

theorem learned_method_valid {before after : Method} (placed : after.Placed base)
    (advances : before.Advances base after) (valid : before.Valid False base.types.size) :
    after.Valid False base.types.size := by
  have ofParams := valid.params
  refine ⟨fun param member => ?_, ?_⟩
  · have advance := advances.params
    have arePlaced := placed.params
    generalize before.params = params at advance ofParams
    generalize after.params = params' at advance arePlaced member
    induction advance with
    | nil => cases member
    | cons advance _ ih =>
        obtain ⟨first, later⟩ := List.forall_mem_cons.mp ofParams
        obtain ⟨isPlaced, arePlaced⟩ := List.forall_mem_cons.mp arePlaced
        rcases List.mem_cons.mp member with rfl | member
        · exact learned_valid isPlaced advance first
        · exact ih later arePlaced member
  · cases resolved : after.result.inferred with
    | false =>
        rw [advances.result.waits resolved]
        exact valid.result
    | true => exact ⟨placed.result.known, nofun⟩

/-- Only types that exist have methods. -/
theorem known_of_method? {hierarchy : Hierarchy} {method : Method}
    (found : (hierarchy.info owner).method? name = some method) :
    owner.index < hierarchy.types.size := by
  by_contra unknown
  rw [Hierarchy.info, Array.getElem?_eq_none (Nat.le_of_not_lt unknown)] at found
  cases found

theorem attributes_updateMethod (hierarchy : Hierarchy) (change : Method → Method) (type : TypeId) :
    ((hierarchy.update owner fun info => info.updateMethod name change).info type).attributes =
      (hierarchy.info type).attributes := by
  rw [Hierarchy.info_update_eq]
  split <;> rfl

theorem info_record {hierarchy : Hierarchy} (known : owner.index < hierarchy.types.size)
    (attributes : List Attribute) (other : TypeId) :
    (hierarchy.update owner fun info => { info with attributes := attributes }).info other =
      if other = owner then { hierarchy.info owner with attributes := attributes }
      else hierarchy.info other := by
  split
  · rename_i same
    rw [same, Hierarchy.info_update_self known]
  · rw [Hierarchy.info_update_of_ne ‹_›]

/-- The class that has recorded its attributes lags behind no more, and the others are as before. -/
theorem recorded_measure {scope : ScopeId} (listed : (owner, scope) ∈ classes)
    (once : (classes.map Prod.fst).Nodup) (known : owner.index < state.hierarchy.types.size)
    (lagging : lag state.tree (state.hierarchy.info owner).attributes (state.tree.locals scope) ≠ 0) :
    InferenceState.measure base classes { state with
        hierarchy := state.hierarchy.update owner fun info => { info with
          attributes := withInferredTypes state.tree (state.hierarchy.info owner).attributes
            (state.tree.locals scope) }
        changed := true } < state.measure base classes := by
  have caughtUp := lag_withInferredTypes state.tree (state.hierarchy.info owner).attributes
    (state.tree.locals scope)
  have length := length_withInferredTypes state.tree (state.hierarchy.info owner).attributes
    (state.tree.locals scope)
  generalize withInferredTypes state.tree (state.hierarchy.info owner).attributes
    (state.tree.locals scope) = after at *
  have room : base.room (state.hierarchy.update owner fun info => { info with attributes := after }) =
      base.room state.hierarchy := Nat.add_right_cancel
    (Hierarchy.room_update base state.hierarchy known fun info => { info with attributes := after })
  have count : attributeCount classes { state with
      hierarchy := state.hierarchy.update owner fun info => { info with attributes := after }
      changed := true } = state.attributeCount classes := by
    unfold attributeCount
    congr 1
    refine List.map_congr_left fun (other, _) _ => ?_
    dsimp only
    rw [info_record known]
    split
    · rename_i same
      rw [same, length]
    · rfl
  have less : InferenceState.lag classes { state with
      hierarchy := state.hierarchy.update owner fun info => { info with attributes := after }
      changed := true } < state.lag classes := by
    refine List.sum_lt_sum _ _ (fun (other, place) member => ?_) ⟨(owner, scope), listed, ?_⟩
    · dsimp only
      rw [info_record known]
      split
      · rename_i same
        have isPlace : place = scope := congrArg Prod.snd
          (List.inj_on_of_nodup_map once member listed same)
        rw [isPlace, caughtUp]
        exact Nat.zero_le _
      · exact Nat.le_refl _
    · dsimp only
      rw [info_record known, if_pos rfl, caughtUp]
      exact Nat.pos_of_ne_zero lagging
  rw [InferenceState.measure, InferenceState.measure, count]
  dsimp only
  rw [room]
  exact Nat.add_lt_add_left less _

section

variable (rooted : base.Rooted) (sound : state.Sound base)
include rooted sound

theorem updateVariable_progress (noDrift : state.drift = none) (id : VariableId)
    {learn : Hierarchy → Variable → Variable}
    (learns : (state.tree.variableAt id).Learns base (learn state.hierarchy (state.tree.variableAt id)))
    (known : id < state.tree.vars.size ∨
      learn state.hierarchy (state.tree.variableAt id) = state.tree.variableAt id)
    (consistent : (updateVariable id learn state).2.Consistent False) :
    state.Progress base classes (updateVariable id learn state).2 := by
  have unfolded : (updateVariable id learn state).2 =
      if learn state.hierarchy (state.tree.variableAt id) = state.tree.variableAt id then state
      else { state with
        tree := state.tree.setVariable id (learn state.hierarchy (state.tree.variableAt id))
        changed := true } := congrArg Prod.snd (advance_of_none noDrift)
  rw [unfolded] at consistent ⊢
  generalize learn state.hierarchy (state.tree.variableAt id) = after at *
  split
  · exact .refl rooted sound
  · rename_i differs
    rw [if_neg differs] at consistent
    have known := known.resolve_right differs
    have shrinks := learns.shrinks.resolve_left differs
    have size : (state.tree.setVariable id after).vars.size = state.tree.vars.size := Array.size_modify ..
    refine ⟨⟨sound.alike, consistent, sound.valid, sound.distinct, fun info member => ?_, fun scope id member => ?_⟩,
      ⟨.refl _, rfl, size, fun other => ?_, methods_refl rooted sound, fun _ => rfl⟩, Or.inr ?_⟩
    · obtain ⟨other, isInfo⟩ := Array.mem_iff_getElem?.mp member
      have same : (state.tree.setVariable id after).variableAt other = info := by
        rw [ScopeTree.variableAt, isInfo]
        rfl
      rw [← same, ScopeTree.variableAt_setVariable]
      split
      · exact learns.placed.known
      · exact (sound.slot rooted.positive other).known
    · rw [size]
      exact sound.known.locals scope id member
    · dsimp only
      rw [ScopeTree.variableAt_setVariable]
      split
      · rename_i changed
        exact changed.1 ▸ learns.advances
      · exact slots_refl rooted sound other
    · refine measure_lt ?_ rfl
      have room := ScopeTree.room_setVariable base state.tree known after
      dsimp only
      omega

theorem updateMethod_progress (noDrift : state.drift = none) {learn : Hierarchy → Method → Method}
    (learns : ∀ method, (state.hierarchy.info owner).method? name = some method →
      method.Learns base (learn state.hierarchy method))
    (consistent : (updateMethod owner name learn state).2.Consistent False) :
    state.Progress base classes (updateMethod owner name learn state).2 := by
  rw [updateMethod, advance_of_none noDrift] at consistent ⊢
  dsimp only at consistent ⊢
  cases found : (state.hierarchy.info owner).method? name with
  | none => exact .refl rooted sound
  | some before =>
      have learned := learns before found
      simp only [found] at consistent ⊢
      generalize learn state.hierarchy before = after at *
      split
      · exact .refl rooted sound
      · rename_i differs
        rw [if_neg differs] at consistent
        have shrinks := learned.shrinks.resolve_left differs
        have known := known_of_method? found
        have isNamed := learned.advances.name.trans (TypeInfo.method?_name found)
        obtain ⟨front, back, all, changed⟩ := (sound.distinct owner).split found
        have changed := changed after
        have alike : (state.hierarchy.update owner fun info => info.updateMethod name fun _ => after).Alike
            state.hierarchy := .update _ owner fun _ => rfl
        have size := sound.alike.size
        refine ⟨⟨alike.trans sound.alike, consistent, ?_, ?_, sound.known⟩,
          ⟨alike, rfl, rfl, slots_refl rooted sound, fun other => ?_, fun other => ?_⟩, Or.inr (measure_lt ?_ ?_)⟩
        · refine Hierarchy.update_valid sound.valid (TypeInfo.updateMethod_valid (sound.valid owner)
            fun method _ => ?_)
          have valid := (sound.valid owner).methods before (List.mem_of_find?_eq_some found)
          rw [size] at valid ⊢
          exact learned_method_valid learned.placed learned.advances valid
        · exact Hierarchy.update_distinct sound.distinct
            (TypeInfo.updateMethod_distinct (sound.distinct owner) isNamed)
        · by_cases same : other = owner
          · subst same
            have placed : ∀ method ∈ front ++ before :: back, method.Placed base :=
              fun _ member => sound.method (all ▸ member)
            obtain ⟨ofFront, _, ofBack⟩ := List.forall_mem_append.mp placed |>.imp id List.forall_mem_cons.mp
            rw [Hierarchy.info_update_self known, changed, all]
            exact List.rel_append (List.forall₂_same.mpr fun method member => .refl rooted (ofFront method member))
              (.cons learned.advances (List.forall₂_same.mpr fun method member =>
                .refl rooted (ofBack method member)))
          · rw [Hierarchy.info_update_of_ne same]
            exact methods_refl rooted sound other
        · rw [attributes_updateMethod]
        · have room := Hierarchy.room_update base state.hierarchy known
            fun info => info.updateMethod name fun _ => after
          rw [TypeInfo.room, TypeInfo.room, changed, all, List.map_append, List.map_append, List.map_cons,
            List.map_cons, List.sum_append, List.sum_append, List.sum_cons, List.sum_cons] at room
          dsimp only
          omega
        · simp only [attributeCount, attributes_updateMethod]

theorem updateParam_progress (noDrift : state.drift = none) (place : Nat)
    {learn : Hierarchy → Variable → Variable}
    (learns : ∀ info : Variable, info.Placed base → info.Learns base (learn state.hierarchy info))
    (consistent : (updateParam owner name place learn state).2.Consistent False) :
    state.Progress base classes (updateParam owner name place learn state).2 := by
  refine updateMethod_progress rooted sound noDrift (fun method found => ?_) consistent
  have placed := sound.method (List.mem_of_find?_eq_some found)
  exact Method.updateParam_learns rooted placed place fun param member => learns param (placed.params param member)

theorem mergeParam_progress (noDrift : state.drift = none) (place : Nat) {id : VariableId}
    (known : id < state.tree.vars.size) :
    state.Progress base classes (mergeParam owner name place id state).2 := by
  cases isParam : ((state.hierarchy.info owner).method? name).bind fun method => method.params[place]? with
  | none =>
      rw [mergeParam_of_none id isParam]
      exact .refl rooted sound
  | some param =>
      have consistent : (mergeParam owner name place id state).2.Consistent False :=
        mergeParam_consistent sound.consistent place id
      obtain ⟨method, isMethod, isParam'⟩ := Option.bind_eq_some_iff.mp isParam
      have placed := (sound.method (List.mem_of_find?_eq_some isMethod)).params param
        (List.mem_of_getElem? isParam')
      have positive := rooted.positive
      rw [mergeParam_of_some id isParam] at consistent ⊢
      dsimp only at consistent ⊢
      have one : state.Progress base classes
          (updateVariable id (fun hierarchy info => info.merge hierarchy.union param) state).2 := by
        refine updateVariable_progress rooted sound noDrift id ?_ (Or.inl known)
          (updateVariable_consistent sound.consistent id fun info fits =>
            Variable.merge_consistent sound.consistent.hierarchy.union fits placed.concrete)
        rw [sound.alike.union]
        exact Variable.merge_learns rooted (sound.slot positive id) placed
      have learned : Learned state (updateVariable id (fun hierarchy info =>
        info.merge hierarchy.union param) state).2 := updateVariable_learned id _
      have noDrift' := learned.cursor.2.1.trans noDrift
      generalize (updateVariable id (fun hierarchy info => info.merge hierarchy.union param) state).2 =
        next at one noDrift' consistent ⊢
      refine one.trans rooted sound (updateParam_progress rooted one.sound noDrift' place
        (fun info isPlaced => ?_) consistent)
      rw [one.sound.alike.union]
      exact Variable.merge_learns rooted isPlaced (one.sound.slot positive id)

/-- Any lesson about types that exist is some progress. -/
theorem learn_progress (noDrift : state.drift = none) (lesson : Lesson)
    (fits : lesson.Fits (TypeId.Absolute base.types.size) (· < state.tree.vars.size)) :
    state.Progress base classes (lesson.learn state).2 := by
  have consistent := learn_consistent sound.consistent lesson
  have positive := rooted.positive
  have isKnown (id : VariableId) : id < state.tree.vars.size ∨ state.tree.variableAt id = default := by
    rcases Nat.lt_or_ge id state.tree.vars.size with known | unknown
    · exact Or.inl known
    · exact Or.inr (by rw [ScopeTree.variableAt, Array.getElem?_eq_none unknown]; rfl)
  cases lesson with
  | hint id type =>
      refine updateVariable_progress rooted sound noDrift id
        (Variable.observeHint_learns rooted (sound.slot positive id) fits.known) ?_ consistent
      exact (isKnown id).imp_right fun same => by rw [same]; rfl
  | value id type =>
      refine updateVariable_progress rooted sound noDrift id ?_ ?_ consistent
      · rw [sound.alike.union]
        exact Variable.observeValue_learns rooted (sound.slot positive id) fits.known
      · exact (isKnown id).imp_right fun same => by rw [same]; rfl
  | merge owner name place id => exact mergeParam_progress rooted sound noDrift place fits
  | argument owner name place type =>
      refine updateParam_progress rooted sound noDrift place (fun info placed => ?_) consistent
      rw [sound.alike.union]
      exact Variable.observeValue_learns rooted placed fits.known
  | result owner name type =>
      refine updateMethod_progress rooted sound noDrift (fun method found => ?_) consistent
      have placed := sound.method (List.mem_of_find?_eq_some found)
      refine Method.updateResult_learns rooted placed ?_
      rw [sound.alike.union]
      exact Variable.observeValue_learns rooted placed.result fits.known
  | record owner scope => exact fits.elim

/-- Attributes that catch up with their variables are some progress. -/
theorem recordAttributes_progress (noDrift : state.drift = none) {scope : ScopeId}
    (listed : (owner, scope) ∈ classes) (once : (classes.map Prod.fst).Nodup) :
    state.Progress base classes (recordAttributes owner scope state).2 := by
  have consistent : (recordAttributes owner scope state).2.Consistent False :=
    recordAttributes_consistent sound.consistent scope
  have unfolded : (recordAttributes owner scope state).2 = _ := congrArg Prod.snd (advance_of_none noDrift)
  rw [unfolded] at consistent ⊢
  dsimp only at consistent ⊢
  split
  · exact .refl rooted sound
  · rename_i differs
    rw [if_neg differs] at consistent
    have known : owner.index < state.hierarchy.types.size := by
      by_contra unknown
      refine differs ?_
      rw [Hierarchy.info, Array.getElem?_eq_none (Nat.le_of_not_lt unknown)]
      rfl
    have alike : (state.hierarchy.update owner fun info => { info with
        attributes := withInferredTypes state.tree (state.hierarchy.info owner).attributes
          (state.tree.locals scope) }).Alike state.hierarchy := .update _ owner fun _ => rfl
    refine ⟨⟨alike.trans sound.alike, consistent, ?_, ?_, sound.known⟩,
      ⟨alike, rfl, rfl, slots_refl rooted sound, fun other => ?_, fun other => ?_⟩,
      Or.inr (recorded_measure listed once known fun upToDate => differs (withInferredTypes_eq_self upToDate))⟩
    · refine Hierarchy.update_valid sound.valid ⟨?_, (sound.valid owner).methods⟩
      refine withInferredTypes_valid (fun id => ?_) (sound.valid owner).attributes
      rw [sound.alike.size]
      exact sound.known.variableAt rooted.positive id
    · have names := map_withInferredTypes Attribute.name (fun _ _ => rfl) state.tree
        (state.hierarchy.info owner).attributes (state.tree.locals scope)
      exact Hierarchy.update_distinct sound.distinct
        ⟨names ▸ (sound.distinct owner).attributes, (sound.distinct owner).methods⟩
    · have kept := methods_refl rooted sound other
      dsimp only
      rw [info_record known]
      split
      · rename_i same
        exact same ▸ kept
      · exact kept
    · dsimp only
      rw [info_record known]
      split
      · rename_i same
        rw [same]
        exact map_withInferredTypes (fun attr => (attr.name, attr.position)) (fun _ _ => rfl) ..
      · rfl

end

end Inference

end CoolLang
