import CoolLang.Inference.Rounds
import CoolLang.Proofs.Hierarchy.Consistency
import CoolLang.Proofs.Hierarchy.Validity
import Mathlib.Algebra.GroupWithZero.Nat

/-!
How a declaration can learn. A type that has been inferred stays inferred and moves to an ancestor of
itself or not at all, and a declaration that has learned something has less room to learn more
(`Variable.Learns`).
-/

namespace CoolLang

variable {hierarchy : Hierarchy}

namespace Variable

/-- How a declaration can change from one moment to a later one. -/
structure Advances (hierarchy : Hierarchy) (before after : Variable) : Prop where
  name : after.name = before.name
  auto : after.auto = before.auto
  /-- What is resolved stays so, and its type moves upward only. -/
  resolved : before.inferred = true →
    after.inferred = true ∧ after.type ∈ hierarchy.ancestors before.type
  waits : after.inferred = false → after = before

/-- How many steps upward a declaration has left, with one more for the first type that it gets. -/
def room (hierarchy : Hierarchy) (info : Variable) : Nat :=
  if info.inferred then hierarchy.height info.type else hierarchy.types.size + 1

/-- A declaration with a type that the hierarchy knows, which is a class if it has been inferred. -/
structure Placed (hierarchy : Hierarchy) (info : Variable) : Prop where
  known : info.type.index < hierarchy.types.size
  concrete : info.inferred = true → info.type.isConcrete = true

/-- What a lesson makes of a declaration. -/
structure Learns (hierarchy : Hierarchy) (before after : Variable) : Prop where
  placed : after.Placed hierarchy
  advances : before.Advances hierarchy after
  shrinks : after = before ∨ after.room hierarchy < before.room hierarchy

variable {info before between after other : Variable} {type : TypeId}

theorem Placed.isClass (placed : info.Placed hierarchy) (inferred : info.inferred = true) :
    hierarchy.IsClass info.type :=
  ⟨placed.concrete inferred, placed.known⟩

/-- An unresolved declaration can take any class. -/
theorem settle_learns (unresolved : info.inferred = false) (isClass : hierarchy.IsClass type) :
    info.Learns hierarchy (info.settle type) := by
  refine ⟨⟨isClass.known, fun _ => isClass.concrete⟩, ⟨rfl, rfl, fun inferred => ?_, nofun⟩, Or.inr ?_⟩
  · rw [unresolved] at inferred
    cases inferred
  · rw [room, room, unresolved, if_neg Bool.false_ne_true]
    exact Nat.lt_succ_of_le (hierarchy.height_le type)

section

variable (rooted : hierarchy.Rooted)
include rooted

theorem Advances.refl (placed : info.Placed hierarchy) : info.Advances hierarchy info :=
  ⟨rfl, rfl, fun inferred => ⟨inferred, rooted.mem_ancestors_self (placed.isClass inferred)⟩, fun _ => rfl⟩

theorem Advances.trans (placed : before.Placed hierarchy) (one : before.Advances hierarchy between)
    (two : between.Advances hierarchy after) : before.Advances hierarchy after where
  name := two.name.trans one.name
  auto := two.auto.trans one.auto
  resolved inferred := by
    obtain ⟨inferred', above⟩ := one.resolved inferred
    obtain ⟨inferred'', above'⟩ := two.resolved inferred'
    exact ⟨inferred'', rooted.ancestors_trans (placed.isClass inferred) above above'⟩
  waits unresolved := by
    have same := two.waits unresolved
    exact same.trans (one.waits (same ▸ unresolved))

theorem Learns.refl (placed : info.Placed hierarchy) : info.Learns hierarchy info :=
  ⟨placed, .refl rooted placed, Or.inl rfl⟩

/-- A resolved declaration can be widened by any class. -/
theorem widen_learns (placed : info.Placed hierarchy) (inferred : info.inferred = true)
    (isClass : hierarchy.IsClass type) :
    info.Learns hierarchy { info with type := hierarchy.union info.type type } := by
  have isClass' := placed.isClass inferred
  have above := (rooted.union_mem isClass' isClass).1
  have joined := rooted.isClass_union isClass' isClass
  refine ⟨⟨joined.known, fun _ => joined.concrete⟩, ⟨rfl, rfl, fun _ => ⟨inferred, above⟩, fun unresolved => ?_⟩,
    ?_⟩
  · rw [inferred] at unresolved
    cases unresolved
  · rcases Nat.lt_or_eq_of_le (rooted.height_le_of_mem isClass' above) with lower | same
    · refine Or.inr ?_
      rw [room, room, inferred, if_pos rfl, if_pos rfl]
      exact lower
    · refine Or.inl ?_
      rw [rooted.eq_of_height_eq isClass' above same]

theorem observeHint_learns (placed : info.Placed hierarchy) (known : type.index < hierarchy.types.size) :
    info.Learns hierarchy (info.observeHint type) := by
  unfold observeHint
  split
  · rename_i accepted
    obtain ⟨isOpen, concrete⟩ := Bool.and_eq_true_iff.mp accepted
    exact settle_learns (by simpa using (Bool.and_eq_true_iff.mp isOpen).2) ⟨concrete, known⟩
  · exact .refl rooted placed

theorem observeValue_learns (placed : info.Placed hierarchy) (known : type.index < hierarchy.types.size) :
    info.Learns hierarchy (info.observeValue hierarchy.union type) := by
  unfold observeValue
  split
  · exact .refl rooted placed
  · rename_i accepted
    have concrete : type.isConcrete = true := by
      cases isConcrete : type.isConcrete with
      | true => rfl
      | false => exact absurd (by rw [isConcrete, Bool.not_false, Bool.or_true]) accepted
    split
    · exact widen_learns rooted placed ‹_› ⟨concrete, known⟩
    · exact settle_learns (by simpa using ‹¬ info.inferred = true›) ⟨concrete, known⟩

theorem merge_learns (placed : info.Placed hierarchy) (placed' : other.Placed hierarchy) :
    info.Learns hierarchy (info.merge hierarchy.union other) := by
  unfold merge
  split
  · exact .refl rooted placed
  · rename_i inferred
    split
    · exact observeValue_learns rooted placed placed'.known
    · exact settle_learns (by simpa using ‹¬ info.inferred = true›)
        (placed'.isClass (by simpa using inferred))

theorem settleOpen_learns (placed : info.Placed hierarchy) : info.Learns hierarchy info.settleOpen := by
  unfold settleOpen
  split
  · rename_i isOpen
    have unresolved : info.inferred = false := by simpa using (Bool.and_eq_true_iff.mp isOpen).2
    exact settle_learns unresolved rooted.isClass_object
  · exact .refl rooted placed

end

end Variable

/-! ### Signatures -/

namespace Method

structure Advances (hierarchy : Hierarchy) (before after : Method) : Prop where
  name : after.name = before.name
  position : after.position = before.position
  params : List.Forall₂ (Variable.Advances hierarchy) before.params after.params
  result : before.result.Advances hierarchy after.result

def room (hierarchy : Hierarchy) (method : Method) : Nat :=
  (method.params.map (Variable.room hierarchy)).sum + method.result.room hierarchy

structure Placed (hierarchy : Hierarchy) (method : Method) : Prop where
  params : ∀ param ∈ method.params, param.Placed hierarchy
  result : method.result.Placed hierarchy

structure Learns (hierarchy : Hierarchy) (before after : Method) : Prop where
  placed : after.Placed hierarchy
  advances : before.Advances hierarchy after
  shrinks : after = before ∨ after.room hierarchy < before.room hierarchy

variable {method before between after : Method}

section

variable (rooted : hierarchy.Rooted)
include rooted

theorem params_refl (placed : method.Placed hierarchy) :
    List.Forall₂ (Variable.Advances hierarchy) method.params method.params :=
  List.forall₂_same.mpr fun param member => .refl rooted (placed.params param member)

theorem Advances.refl (placed : method.Placed hierarchy) : method.Advances hierarchy method :=
  ⟨rfl, rfl, params_refl rooted placed, .refl rooted placed.result⟩

theorem params_trans {first second third : List Variable}
    (placed : ∀ param ∈ first, param.Placed hierarchy)
    (one : List.Forall₂ (Variable.Advances hierarchy) first second)
    (two : List.Forall₂ (Variable.Advances hierarchy) second third) :
    List.Forall₂ (Variable.Advances hierarchy) first third := by
  induction one generalizing third with
  | nil => exact two
  | cons advance _ ih =>
      cases two with
      | cons advance' later =>
          obtain ⟨isPlaced, arePlaced⟩ := List.forall_mem_cons.mp placed
          exact .cons (advance.trans rooted isPlaced advance') (ih arePlaced later)

theorem Advances.trans (placed : before.Placed hierarchy) (one : before.Advances hierarchy between)
    (two : between.Advances hierarchy after) : before.Advances hierarchy after where
  name := two.name.trans one.name
  position := two.position.trans one.position
  params := params_trans rooted placed.params one.params two.params
  result := one.result.trans rooted placed.result two.result

theorem updateResult_learns (placed : method.Placed hierarchy) {result : Variable}
    (learns : method.result.Learns hierarchy result) :
    method.Learns hierarchy { method with result := result } := by
  refine ⟨⟨placed.params, learns.placed⟩, ⟨rfl, rfl, params_refl rooted placed, learns.advances⟩, ?_⟩
  rcases learns.shrinks with same | less
  · exact Or.inl (by rw [same])
  · exact Or.inr (Nat.add_lt_add_left less _)

theorem updateParam_learns (placed : method.Placed hierarchy) (place : Nat)
    {learn : Variable → Variable}
    (learns : ∀ param ∈ method.params, param.Learns hierarchy (learn param)) :
    method.Learns hierarchy { method with params := method.params.modify place learn } := by
  have all : (∀ param ∈ method.params.modify place learn, param.Placed hierarchy) ∧
      List.Forall₂ (Variable.Advances hierarchy) method.params (method.params.modify place learn) ∧
      (method.params.modify place learn = method.params ∨
        ((method.params.modify place learn).map (Variable.room hierarchy)).sum <
          (method.params.map (Variable.room hierarchy)).sum) := by
    have arePlaced := placed.params
    generalize method.params = params at learns arePlaced
    induction params generalizing place with
    | nil =>
        rw [List.modify_nil]
        exact ⟨nofun, .nil, Or.inl rfl⟩
    | cons param params ih =>
        obtain ⟨first, later⟩ := List.forall_mem_cons.mp learns
        obtain ⟨isPlaced, arePlaced⟩ := List.forall_mem_cons.mp arePlaced
        cases place with
        | zero =>
            rw [List.modify_zero_cons]
            refine ⟨List.forall_mem_cons.mpr ⟨first.placed, arePlaced⟩,
              .cons first.advances (List.forall₂_same.mpr fun other member =>
                .refl rooted (arePlaced other member)), ?_⟩
            rcases first.shrinks with same | less
            · exact Or.inl (by rw [same])
            · exact Or.inr (Nat.add_lt_add_right less _)
        | succ place =>
            rw [List.modify_succ_cons]
            obtain ⟨placed', advances, shrinks⟩ := ih place later arePlaced
            refine ⟨List.forall_mem_cons.mpr ⟨isPlaced, placed'⟩,
              .cons (.refl rooted isPlaced) advances, ?_⟩
            rcases shrinks with same | less
            · exact Or.inl (by rw [same])
            · exact Or.inr (Nat.add_lt_add_left less _)
  obtain ⟨placed', advances, shrinks⟩ := all
  refine ⟨⟨placed', placed.result⟩, ⟨rfl, rfl, advances, .refl rooted placed.result⟩, ?_⟩
  rcases shrinks with same | less
  · exact Or.inl (by rw [same])
  · exact Or.inr (Nat.add_lt_add_right less _)

theorem settleOpen_placed (placed : method.Placed hierarchy) : method.settleOpen.Placed hierarchy := by
  refine ⟨fun param member => ?_, (Variable.settleOpen_learns rooted placed.result).placed⟩
  obtain ⟨before, isParam, rfl⟩ := List.mem_map.mp member
  exact (Variable.settleOpen_learns rooted (placed.params before isParam)).placed

theorem settleOpen_advances (placed : method.Placed hierarchy) :
    method.Advances hierarchy method.settleOpen := by
  refine ⟨rfl, rfl, ?_, (Variable.settleOpen_learns rooted placed.result).advances⟩
  exact List.forall₂_map_right_iff.mpr (List.forall₂_same.mpr fun param member =>
    (Variable.settleOpen_learns rooted (placed.params param member)).advances)

end

end Method

end CoolLang
