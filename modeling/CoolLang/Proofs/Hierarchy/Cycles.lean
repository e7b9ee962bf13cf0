import CoolLang.Proofs.Hierarchy.Linking
import Mathlib.Data.Finset.Card
import Mathlib.Dynamics.PeriodicPts.Defs
import Mathlib.Logic.Relation
import Mathlib.Order.Interval.Finset.Nat

/-!
Cycles of parents. A class is its own proper ancestor exactly if its parents lead back to it in fewer steps
than there are types (`Hierarchy.isOnCycle_iff_transGen`). Going through the classes in order and taking off
its cycle each one that is on one then, the first class of each cycle is taken off and no other
(`Hierarchy.breakCycles_first`).
-/

namespace CoolLang

open Relation

/-- Whether two things lead to each other. -/
def SameCycle {α : Type} (leads : α → α → Prop) (one two : α) : Prop :=
  TransGen leads one two ∧ TransGen leads two one

namespace SameCycle

variable {α : Type} {leads fewer : α → α → Prop} {one two three : α}

theorem symm (same : SameCycle leads one two) : SameCycle leads two one :=
  ⟨same.2, same.1⟩

theorem trans (first : SameCycle leads one two) (second : SameCycle leads two three) :
    SameCycle leads one three :=
  ⟨first.1.trans second.1, second.2.trans first.2⟩

end SameCycle

/-- Where each thing leads to one other at most, whatever comes after a cycle is on it. -/
theorem sameCycle_of_transGen {α : Type} {leads : α → α → Prop} {start found : α}
    (cycle : TransGen leads start start) (reached : TransGen leads start found)
    (unique : ∀ one two three, leads one two → leads one three → two = three) :
    SameCycle leads start found := by
  refine ⟨reached, ?_⟩
  induction reached with
  | single step =>
      obtain ⟨next, step', rest⟩ := TransGen.head'_iff.mp cycle
      obtain rfl := unique _ _ _ step step'
      rcases reflTransGen_iff_eq_or_transGen.mp rest with rfl | rest
      · exact cycle
      · exact rest
  | tail _ step ih =>
      obtain ⟨next, step', rest⟩ := TransGen.head'_iff.mp ih
      obtain rfl := unique _ _ _ step step'
      rcases reflTransGen_iff_eq_or_transGen.mp rest with rfl | rest
      · exact cycle
      · exact rest

/-- A way to where it goes on is one over all steps that go on. -/
theorem transGen_of_continuing {α : Type} {leads other : α → α → Prop} {start found : α}
    (reached : TransGen leads start found) (goesOn : ∃ next, leads found next)
    (continuing : ∀ one two three, leads one two → leads two three → other one two) :
    TransGen other start found := by
  induction reached with
  | single step => exact .single (continuing _ _ _ step goesOn.choose_spec)
  | tail _ step ih => exact .tail (ih ⟨_, step⟩) (continuing _ _ _ step goesOn.choose_spec)

theorem SameCycle.of_continuing {α : Type} {leads other : α → α → Prop} {one two : α}
    (same : SameCycle leads one two)
    (continuing : ∀ one two three, leads one two → leads two three → other one two) :
    SameCycle other one two := by
  obtain ⟨first, step, _⟩ := TransGen.head'_iff.mp same.1
  obtain ⟨second, step', _⟩ := TransGen.head'_iff.mp same.2
  exact ⟨transGen_of_continuing same.1 ⟨second, step'⟩ continuing,
    transGen_of_continuing same.2 ⟨first, step⟩ continuing⟩

namespace Hierarchy

variable {hierarchy linked : Hierarchy} {type found : TypeId}

/-- Whether a type has another as its parent. -/
def IsParent (hierarchy : Hierarchy) (child parent : TypeId) : Prop :=
  hierarchy.parent? child = some parent

theorem IsParent.unique {one two three : TypeId} (first : hierarchy.IsParent one two)
    (second : hierarchy.IsParent one three) : two = three :=
  Option.some.inj (first.symm.trans second)

/-! ### Lines -/

/-- One step upward. -/
def climb (hierarchy : Hierarchy) (start : Option TypeId) : Option TypeId :=
  start.bind hierarchy.parent?

theorem climb_none (hierarchy : Hierarchy) (count : Nat) : hierarchy.climb^[count] none = none :=
  Function.iterate_fixed rfl count

theorem mem_line_iff {count : Nat} {start : Option TypeId} :
    found ∈ hierarchy.line count start ↔ ∃ steps < count, hierarchy.climb^[steps] start = some found := by
  induction count generalizing start with
  | zero => exact ⟨nofun, fun ⟨_, impossible, _⟩ => absurd impossible (Nat.not_lt_zero _)⟩
  | succ count ih =>
      cases start with
      | none =>
          refine ⟨nofun, fun ⟨steps, _, reached⟩ => ?_⟩
          rw [climb_none] at reached
          cases reached
      | some type =>
          rw [line, List.mem_cons, ih]
          constructor
          · rintro (rfl | ⟨steps, few, reached⟩)
            · exact ⟨0, Nat.succ_pos _, rfl⟩
            · exact ⟨steps + 1, Nat.succ_lt_succ few, reached⟩
          · rintro ⟨steps, few, reached⟩
            cases steps with
            | zero => exact Or.inl (Option.some.inj reached).symm
            | succ steps => exact Or.inr ⟨steps, Nat.lt_of_succ_lt_succ few, reached⟩

theorem transGen_iff_climb :
    TransGen hierarchy.IsParent type found ↔ ∃ steps, hierarchy.climb^[steps + 1] (some type) = some found := by
  constructor
  · intro reached
    induction reached with
    | single step => exact ⟨0, step⟩
    | tail _ step ih =>
        obtain ⟨steps, reached⟩ := ih
        exact ⟨steps + 1, by rw [Function.iterate_succ_apply', reached]; exact step⟩
  · rintro ⟨steps, reached⟩
    induction steps generalizing found with
    | zero => exact .single reached
    | succ steps ih =>
        rw [Function.iterate_succ_apply'] at reached
        obtain ⟨last, reached, step⟩ := Option.bind_eq_some_iff.mp reached
        exact (ih reached).tail step

section

variable (parents : ∀ child parent, hierarchy.IsParent child parent → hierarchy.IsClass parent)
include parents

/-- On the way around a cycle there are classes only. -/
theorem exists_climb_of_cycle (cycle : TransGen hierarchy.IsParent type type) {around : Nat}
    (returns : hierarchy.climb^[around] (some type) = some type) {index : Nat} (early : index < around) :
    ∃ found, hierarchy.climb^[index] (some type) = some found ∧ hierarchy.IsClass found := by
  cases reached : hierarchy.climb^[index] (some type) with
  | none =>
      rw [← Nat.sub_add_cancel early.le, Function.iterate_add_apply, reached, climb_none] at returns
      cases returns
  | some found =>
      refine ⟨found, rfl, ?_⟩
      obtain ⟨last, _, step⟩ := TransGen.tail'_iff.mp cycle
      cases index with
      | zero =>
          cases reached
          exact parents last type step
      | succ index =>
          rw [Function.iterate_succ_apply'] at reached
          obtain ⟨child, _, step⟩ := Option.bind_eq_some_iff.mp reached
          exact parents child found step

/-- The classes on the way around a cycle have distinct numbers, and none has the number of the first sentinel. -/
theorem minimalPeriod_le (cycle : TransGen hierarchy.IsParent type type) :
    Function.minimalPeriod hierarchy.climb (some type) ≤ hierarchy.types.size - 1 := by
  have onWay {index : Nat} (early : index < Function.minimalPeriod hierarchy.climb (some type)) :=
    exists_climb_of_cycle parents cycle Function.iterate_minimalPeriod early
  have inRange : Set.MapsTo (fun index => ((hierarchy.climb^[index] (some type)).getD default).index)
      (Finset.range (Function.minimalPeriod hierarchy.climb (some type))) (Finset.Ico 1 hierarchy.types.size) := by
    intro index early
    obtain ⟨found, reached, isClass⟩ := onWay (Finset.mem_range.mp early)
    have notFirst : found.index ≠ 0 := fun isFirst => by
      obtain rfl : found = .selfType := congrArg TypeId.mk isFirst
      cases isClass.concrete
    dsimp only
    rw [reached]
    exact Finset.mem_Ico.mpr ⟨Nat.pos_of_ne_zero notFirst, isClass.known⟩
  have apart : Set.InjOn (fun index => ((hierarchy.climb^[index] (some type)).getD default).index)
      (Finset.range (Function.minimalPeriod hierarchy.climb (some type))) := by
    intro one early two early' same
    obtain ⟨found, reached, _⟩ := onWay (Finset.mem_range.mp early)
    obtain ⟨found', reached', _⟩ := onWay (Finset.mem_range.mp early')
    dsimp only at same
    rw [reached, reached'] at same
    refine Function.iterate_injOn_Iio_minimalPeriod (Finset.mem_range.mp early)
      (Finset.mem_range.mp early') ?_
    dsimp only
    rw [reached, reached', show found = found' from congrArg TypeId.mk same]
  have counted := Finset.card_le_card_of_injOn _ inRange apart
  rwa [Finset.card_range, Nat.card_Ico] at counted

/-- Parents lead back to a class in fewer steps than there are types, or not at all. -/
theorem isOnCycle_iff_transGen : hierarchy.isOnCycle type = true ↔ TransGen hierarchy.IsParent type type := by
  rw [isOnCycle_iff, mem_line_iff]
  constructor
  · rintro ⟨steps, _, reached⟩
    exact transGen_iff_climb.mpr ⟨steps, reached⟩
  · intro cycle
    obtain ⟨steps, periodic⟩ := transGen_iff_climb.mp cycle
    have few := minimalPeriod_le parents cycle
    have positive := Function.IsPeriodicPt.minimalPeriod_pos (Nat.succ_pos steps) periodic
    have returns : hierarchy.climb^[Function.minimalPeriod hierarchy.climb (some type)] (some type) = some type :=
      Function.iterate_minimalPeriod
    refine ⟨Function.minimalPeriod hierarchy.climb (some type) - 1, by omega, ?_⟩
    rw [← Nat.sub_add_cancel positive] at returns
    exact returns

end

/-! ### Breaking cycles -/

/-- What going through the classes in `front` makes of linked classes: those in `freed` have been taken off
their cycles, one of each cycle that a class in `front` is on. -/
structure Freed (linked : Hierarchy) (front freed : List (ClassDecl × TypeId)) (state : Hierarchy) : Prop where
  sublist : freed.Sublist front
  size : state.types.size = linked.types.size
  parent? : ∀ type, state.parent? type =
    if type ∈ freed.map Prod.snd then some .object else linked.parent? type
  onCycle : ∀ class' ∈ freed, TransGen linked.IsParent class'.2 class'.2
  covers : ∀ class' ∈ front, TransGen linked.IsParent class'.2 class'.2 →
    ∃ other ∈ freed, SameCycle linked.IsParent other.2 class'.2

/-- The first of some classes that is on its cycle. -/
structure IsFirst (leads : TypeId → TypeId → Prop) (front : List (ClassDecl × TypeId)) (type : TypeId) :
    Prop where
  onCycle : TransGen leads type type
  first : ∀ earlier ∈ front, ¬ SameCycle leads earlier.2 type

theorem IsFirst.of_sameCycle {leads other : TypeId → TypeId → Prop} {front : List (ClassDecl × TypeId)}
    (isFirst : IsFirst leads front type)
    (same : ∀ one two, SameCycle leads one two ↔ SameCycle other one two) : IsFirst other front type :=
  ⟨((same type type).mp ⟨isFirst.onCycle, isFirst.onCycle⟩).1,
    fun earlier member => mt (same earlier.2 type).mpr (isFirst.first earlier member)⟩

section

variable {front freed : List (ClassDecl × TypeId)} {state : Hierarchy} (isLinked : Linked [] linked)
  (isFreed : Freed linked front freed state)
include isLinked isFreed

theorem Freed.parents : ∀ child parent, state.IsParent child parent → state.IsClass parent := by
  intro child parent isParent
  rw [IsParent, isFreed.parent?] at isParent
  split at isParent
  · cases isParent
    exact ⟨rfl, Nat.lt_of_lt_of_le (by decide) (isFreed.size ▸ isLinked.builtins)⟩
  · have isClass := isLinked.parents child parent isParent
    exact ⟨isClass.concrete, isFreed.size ▸ isClass.known⟩

/-- `Object` has no parent, since it has been on no cycle. -/
theorem Freed.top (next : TypeId) : ¬ state.IsParent .object next := by
  intro isParent
  rw [IsParent, isFreed.parent?, isLinked.top] at isParent
  split at isParent
  · rename_i isFreed'
    obtain ⟨class', member, isObject⟩ := List.mem_map.mp isFreed'
    obtain ⟨_, step, _⟩ := TransGen.head'_iff.mp (isFreed.onCycle class' member)
    rw [IsParent, isObject, isLinked.top] at step
    cases step
  · cases isParent

/-- A class that has been taken off leads to `Object`, and nowhere from there. -/
theorem Freed.remains (one two three : TypeId) (step : state.IsParent one two) (step' : state.IsParent two three) :
    linked.IsParent one two ∧ one ∉ freed.map Prod.snd := by
  rw [IsParent, isFreed.parent?] at step
  split at step
  · cases step
    exact absurd step' (isFreed.top isLinked three)
  · exact ⟨step, ‹_›⟩

omit isLinked in
theorem Freed.isParent_of_not_mem {one two : TypeId} (step : linked.IsParent one two)
    (isFree : one ∉ freed.map Prod.snd) : state.IsParent one two := by
  rw [IsParent, isFreed.parent?, if_neg isFree]
  exact step

theorem Freed.not_mem_of_cycle (cycle : TransGen state.IsParent type type) :
    ∀ other ∈ freed, ¬ SameCycle linked.IsParent other.2 type := by
  intro other member same
  obtain ⟨_, step, _⟩ := TransGen.head'_iff.mp cycle
  have reached : TransGen (fun one two => linked.IsParent one two ∧ one ∉ freed.map Prod.snd) type type :=
    transGen_of_continuing cycle ⟨_, step⟩ (isFreed.remains isLinked)
  have stays {found : TypeId} (way : TransGen linked.IsParent type found) :
      TransGen (fun one two => linked.IsParent one two ∧ one ∉ freed.map Prod.snd) type found := by
    induction way with
    | single step =>
        obtain ⟨next, step', _⟩ := TransGen.head'_iff.mp reached
        exact .single ⟨step, step'.2⟩
    | tail _ step ih =>
        have back := (sameCycle_of_transGen reached ih fun _ _ _ one two => one.1.unique two.1).2
        obtain ⟨next, step', _⟩ := TransGen.head'_iff.mp back
        exact ih.tail ⟨step, step'.2⟩
  have back := (sameCycle_of_transGen reached (stays same.2) fun _ _ _ one two => one.1.unique two.1).2
  obtain ⟨next, step', _⟩ := TransGen.head'_iff.mp back
  exact step'.2 (List.mem_map_of_mem member)

/-- A cycle that is left is one from which no class has been taken off. -/
theorem Freed.onCycle_iff : TransGen state.IsParent type type ↔
    TransGen linked.IsParent type type ∧ ∀ other ∈ freed, ¬ SameCycle linked.IsParent other.2 type := by
  constructor
  · intro cycle
    obtain ⟨_, step, _⟩ := TransGen.head'_iff.mp cycle
    exact ⟨transGen_of_continuing cycle ⟨_, step⟩ fun _ _ _ step step' => (isFreed.remains isLinked _ _ _ step step').1,
      isFreed.not_mem_of_cycle isLinked cycle⟩
  · rintro ⟨cycle, apart⟩
    have free {one : TypeId} (back : TransGen linked.IsParent one type)
        (reached : one = type ∨ TransGen linked.IsParent type one) : one ∉ freed.map Prod.snd := by
      intro isFreed'
      obtain ⟨other, member, rfl⟩ := List.mem_map.mp isFreed'
      rcases reached with same | reached
      · rw [← same] at cycle
        exact apart other member (same ▸ ⟨cycle, cycle⟩)
      · exact apart other member ⟨back, reached⟩
    have stays {found : TypeId} (way : TransGen linked.IsParent type found) :
        TransGen state.IsParent type found := by
      induction way with
      | single step => exact .single (isFreed.isParent_of_not_mem step (free cycle (Or.inl rfl)))
      | tail way step ih =>
          have back := (sameCycle_of_transGen cycle way fun _ _ _ => IsParent.unique).2
          exact ih.tail (isFreed.isParent_of_not_mem step (free back (Or.inr way)))
    exact stays cycle

/-- The next class is on a cycle still if it is the first on one. -/
theorem Freed.isOnCycle_iff_first (type : TypeId) :
    state.isOnCycle type = true ↔ IsFirst linked.IsParent front type := by
  rw [isOnCycle_iff_transGen (isFreed.parents isLinked), isFreed.onCycle_iff isLinked]
  constructor
  · rintro ⟨cycle, apart⟩
    refine ⟨cycle, fun earlier member same => ?_⟩
    obtain ⟨other, isFreed', same'⟩ := isFreed.covers earlier member (same.1.trans same.2)
    exact apart other isFreed' (same'.trans same)
  · rintro ⟨cycle, first⟩
    exact ⟨cycle, fun other member => first other (isFreed.sublist.subset member)⟩

theorem Freed.breakCycle {class' : ClassDecl × TypeId} (known : class'.2.index < linked.types.size) :
    (state.isOnCycle class'.2 = true →
      Freed linked (front ++ [class']) (freed ++ [class']) (state.breakCycle class').1) ∧
    (state.isOnCycle class'.2 = false →
      Freed linked (front ++ [class']) freed (state.breakCycle class').1) := by
  have first := isFreed.isOnCycle_iff_first isLinked class'.2
  obtain ⟨sublist, size, parent?, onCycle, covers⟩ := isFreed
  obtain ⟨decl, type⟩ := class'
  unfold Hierarchy.breakCycle
  dsimp only at known first ⊢
  constructor
  · intro cyclic
    obtain ⟨cycle, _⟩ := first.mp cyclic
    rw [if_pos cyclic]
    refine ⟨sublist.append (List.Sublist.refl _), (size_update ..).trans size, fun other => ?_,
      fun class' member => ?_, fun class' member cycle' => ?_⟩
    · simp only [List.map_append, List.mem_append, List.map_singleton, List.mem_singleton]
      by_cases same : other = type
      · rw [if_pos (Or.inr same), same, parent?_setParent_self (size ▸ known)]
      · rw [parent?_setParent_of_ne same, parent?]
        simp only [same, or_false]
    · rcases List.mem_append.mp member with member | member
      · exact onCycle class' member
      · obtain rfl := List.mem_singleton.mp member
        exact cycle
    · rcases List.mem_append.mp member with member | member
      · obtain ⟨other, isFreed, same⟩ := covers class' member cycle'
        exact ⟨other, List.mem_append_left _ isFreed, same⟩
      · obtain rfl := List.mem_singleton.mp member
        exact ⟨(decl, type), List.mem_append_right _ (List.mem_singleton_self _), cycle, cycle⟩
  · intro straight
    rw [straight, if_neg Bool.false_ne_true]
    refine ⟨sublist.trans (List.sublist_append_left _ _), size, parent?, onCycle,
      fun class' member cycle => ?_⟩
    rcases List.mem_append.mp member with member | member
    · exact covers class' member cycle
    · obtain rfl := List.mem_singleton.mp member
      have notFirst := mt first.mpr (Bool.eq_false_iff.mp straight)
      by_contra none
      refine notFirst ⟨cycle, fun earlier isEarlier same => ?_⟩
      obtain ⟨other, isFreed, same'⟩ := covers earlier isEarlier (same.1.trans same.2)
      exact none ⟨other, isFreed, same'.trans same⟩

end

/-- How the diagnostic of a class reads that is taken off its cycle. -/
def cyclicFault (class' : ClassDecl × TypeId) : Diagnostic :=
  ⟨class'.1.position, .cyclicInheritance class'.1.name.name⟩

/-- Going through the classes in order, the first of each cycle is reported and taken off, and no other. -/
theorem breakCycles_first (isLinked : Linked [] linked) {front freed : List (ClassDecl × TypeId)}
    {state : Hierarchy} (isFreed : Freed linked front freed state) (back : List (ClassDecl × TypeId))
    (known : ∀ class' ∈ back, class'.2.index < linked.types.size) :
    ∃ later, Freed linked (front ++ back) (freed ++ later) (reportEach breakCycle state back).1 ∧
      (reportEach breakCycle state back).2 = later.map cyclicFault ∧ later.Sublist back ∧
      ∀ before class' after, back = before ++ class' :: after →
        (IsFirst linked.IsParent (front ++ before) class'.2 → class' ∈ later) ∧
        (class' ∈ later → class'.2 ∉ (before ++ after).map Prod.snd →
          IsFirst linked.IsParent (front ++ before) class'.2) := by
  induction back generalizing front freed state with
  | nil =>
      refine ⟨[], by rwa [List.append_nil, List.append_nil], rfl, List.Sublist.refl _,
        fun before _ _ split => ?_⟩
      exact absurd split (List.append_ne_nil_of_right_ne_nil _ (List.cons_ne_nil _ _)).symm
  | cons class' back ih =>
      obtain ⟨isKnown, later⟩ := List.forall_mem_cons.mp known
      have first := isFreed.isOnCycle_iff_first isLinked class'.2
      obtain ⟨taken, left⟩ := isFreed.breakCycle isLinked isKnown
      have step : (state.breakCycle class').2 =
          if state.isOnCycle class'.2 = true then [cyclicFault class'] else [] := by
        unfold breakCycle
        dsimp only
        split <;> rfl
      cases cyclic : state.isOnCycle class'.2 with
      | true =>
          obtain ⟨rest, isFreed', found, sublist, firsts⟩ := ih (taken cyclic) later
          rw [List.append_assoc, List.append_assoc] at isFreed'
          refine ⟨class' :: rest, isFreed', ?_, sublist.cons_cons _, fun before other after split => ?_⟩
          · rw [reportEach]
            dsimp only
            rw [step, if_pos cyclic, found]
            rfl
          · obtain _ | ⟨head, before⟩ := before
            · obtain ⟨rfl, rfl⟩ := List.cons.inj split
              rw [List.append_nil]
              exact ⟨fun _ => List.mem_cons_self, fun _ _ => first.mp cyclic⟩
            · obtain ⟨rfl, split'⟩ := List.cons.inj split
              have others := firsts before other after split'
              rw [List.append_assoc] at others
              refine ⟨fun isFirst => List.mem_cons_of_mem _ (others.1 isFirst), fun member apart => ?_⟩
              obtain ⟨notHead, apart⟩ := not_or.mp (mt List.mem_cons.mpr apart)
              rcases List.mem_cons.mp member with rfl | member
              · exact absurd rfl notHead
              · exact others.2 member apart
      | false =>
          obtain ⟨rest, isFreed', found, sublist, firsts⟩ := ih (left cyclic) later
          rw [List.append_assoc] at isFreed'
          refine ⟨rest, isFreed', ?_, sublist.cons _, fun before other after split => ?_⟩
          · rw [reportEach]
            dsimp only
            rw [step, cyclic, if_neg Bool.false_ne_true, found]
            rfl
          · obtain _ | ⟨head, before⟩ := before
            · obtain ⟨rfl, rfl⟩ := List.cons.inj split
              rw [List.append_nil]
              refine ⟨fun isFirst => ?_, fun member apart => ?_⟩
              · exact absurd (first.mpr isFirst) (Bool.eq_false_iff.mp cyclic)
              · exact absurd (List.mem_map_of_mem (f := Prod.snd) (sublist.subset member)) apart
            · obtain ⟨rfl, split'⟩ := List.cons.inj split
              have others := firsts before other after split'
              rw [List.append_assoc] at others
              refine ⟨others.1, fun member apart => ?_⟩
              exact others.2 member (not_or.mp (mt List.mem_cons.mpr apart)).2

end Hierarchy

end CoolLang
