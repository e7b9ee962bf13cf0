import Mathlib.Data.Finset.Card
import Mathlib.Data.Finset.Prod
import Mathlib.Data.List.Forall2
import Mathlib.Order.Interval.Finset.Nat
import CoolLang.Grammar.Saturation

/-!
Saturation by growing folds. A fold whose steps never lose anything and that ends where it began has
changed nothing on the way (`foldl_fixed`). Where a value is given by the facts of a finite universe
that hold of it, and rounds keep facts, as many rounds as there are facts reach a fixed point
(`round_saturate_of_facts`).
-/

namespace CoolLang

section Folds

variable {α β : Type} {below : α → α → Prop} {step : α → β → α}

theorem below_foldl (refl : ∀ value, below value value)
    (trans : ∀ {first second third}, below first second → below second third → below first third)
    (grows : ∀ value item, below value (step value item)) (items : List β) (value : α) :
    below value (items.foldl step value) := by
  induction items generalizing value with
  | nil => exact refl value
  | cons item items ih => exact trans (grows value item) (ih (step value item))

theorem foldl_fixed (refl : ∀ value, below value value)
    (trans : ∀ {first second third}, below first second → below second third → below first third)
    (antisymm : ∀ {first second}, below first second → below second first → first = second)
    (grows : ∀ value item, below value (step value item)) {items : List β} {value : α}
    (fixed : items.foldl step value = value) : ∀ item ∈ items, step value item = value := by
  induction items with
  | nil => intro item impossible; cases impossible
  | cons first items ih =>
      rw [List.foldl_cons] at fixed
      have back : below (step value first) value := by
        have later := below_foldl refl trans grows items (step value first)
        rwa [fixed] at later
      have same : step value first = value := antisymm back (grows value first)
      rw [same] at fixed
      intro item member
      rcases List.mem_cons.mp member with atHead | inTail
      · rw [atHead]
        exact same
      · exact ih fixed item inTail

/-- Whatever a fold does with an item, it does to a value between the first and the last. -/
theorem foldl_passes (refl : ∀ value, below value value)
    (trans : ∀ {first second third}, below first second → below second third → below first third)
    (grows : ∀ value item, below value (step value item)) {items : List β} (value : α) :
    ∀ item ∈ items, ∃ current, below value current ∧
      below (step current item) (items.foldl step value) := by
  induction items generalizing value with
  | nil => intro item impossible; cases impossible
  | cons first items ih =>
      intro item member
      rcases List.mem_cons.mp member with rfl | inTail
      · exact ⟨value, refl value, below_foldl refl trans grows items (step value item)⟩
      · obtain ⟨current, lower, upper⟩ := ih (step value first) item inTail
        exact ⟨current, trans (grows value first) lower, upper⟩

/-- What every step keeps, a fold keeps. -/
theorem foldl_preserves (keeps : α → Prop) {items : List β}
    (kept : ∀ value, ∀ item ∈ items, keeps value → keeps (step value item)) {value : α}
    (start : keeps value) : keeps (items.foldl step value) := by
  induction items generalizing value with
  | nil => exact start
  | cons item items ih =>
      apply ih
      · intro current other member
        exact kept current other (List.mem_cons_of_mem item member)
      · exact kept value item List.mem_cons_self start

end Folds

/-! ### Lists that grow entry by entry -/

/-- Adding to one entry of a list leaves every entry at least as large as it was. -/
theorem forall₂_modify {β : Type} {below : β → β → Prop} (refl : ∀ value, below value value)
    {change : β → β} (grows : ∀ value, below value (change value)) (values : List β)
    (place : Nat) : List.Forall₂ below values (values.modify place change) := by
  induction values generalizing place with
  | nil => cases place <;> exact .nil
  | cons value values ih =>
      cases place with
      | zero => exact .cons (grows value) (List.forall₂_same.mpr fun other _ => refl other)
      | succ place => exact .cons (refl value) (ih place)

theorem forall₂_trans {β : Type} {below : β → β → Prop}
    (trans : ∀ {first second third}, below first second → below second third → below first third)
    {first second third : List β} (lower : List.Forall₂ below first second)
    (upper : List.Forall₂ below second third) : List.Forall₂ below first third := by
  induction lower generalizing third with
  | nil => exact upper
  | cons head _ ih =>
      cases upper with
      | cons head' tail' => exact .cons (trans head head') (ih tail')

theorem forall₂_antisymm {β : Type} {below : β → β → Prop}
    (antisymm : ∀ {first second}, below first second → below second first → first = second)
    {first second : List β} (lower : List.Forall₂ below first second)
    (upper : List.Forall₂ below second first) : first = second := by
  induction lower with
  | nil => rfl
  | cons head _ ih =>
      cases upper with
      | cons head' tail' => rw [antisymm head head', ih tail']

theorem eq_or_eq_change_of_mem_modify {β : Type} {change : β → β} {values : List β} {place : Nat} {value : β}
    (member : value ∈ values.modify place change) :
    value ∈ values ∨ ∃ old ∈ values, value = change old := by
  obtain ⟨index, found⟩ := List.mem_iff_getElem?.mp member
  rw [List.getElem?_modify] at found
  cases before : values[index]? with
  | none => rw [before] at found; cases found
  | some old =>
      rw [before] at found
      have present := List.mem_of_getElem? before
      split at found
      · exact Or.inr ⟨old, present, (Option.some.inj found).symm⟩
      · cases found
        exact Or.inl present

/-! ### Rounds -/

theorem round_saturate_of_facts {α φ : Type} [DecidableEq α] [DecidableEq φ] (round : α → α)
    (keeps : α → Prop) (facts : Finset φ) (holds : α → φ → Bool)
    (step : ∀ value, keeps value → keeps (round value))
    (grows : ∀ value, keeps value → ∀ fact, holds value fact = true →
      holds (round value) fact = true)
    (determined : ∀ first second, keeps first → keeps second →
      (∀ fact ∈ facts, holds first fact = holds second fact) → first = second)
    (rounds : Nat) (value : α) (start : keeps value) (enough : facts.card ≤ rounds) :
    round (saturate round rounds value) = saturate round rounds value := by
  apply round_saturate round keeps
    (fun current => (facts.filter fun fact => holds current fact = true).card) facts.card step
  · intro current kept changed
    apply Finset.card_lt_card
    rw [Finset.ssubset_iff_subset_ne]
    constructor
    · intro fact member
      rw [Finset.mem_filter] at member ⊢
      exact ⟨member.1, grows current kept fact member.2⟩
    · intro same
      apply changed
      apply determined (round current) current (step current kept) kept
      intro fact inFacts
      have agree : fact ∈ facts.filter (fun fact => holds current fact = true) ↔
          fact ∈ facts.filter (fun fact => holds (round current) fact = true) := by
        rw [same]
      rw [Finset.mem_filter, Finset.mem_filter, and_iff_right inFacts,
        and_iff_right inFacts] at agree
      exact Bool.eq_iff_iff.mpr agree.symm
  · intro current _
    exact Finset.card_filter_le facts _
  · exact start
  · omega

end CoolLang
