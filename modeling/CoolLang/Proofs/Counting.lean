import Mathlib.Data.Finset.Powerset
import Mathlib.Data.Finset.Dedup

/-!
Counting by subsets. Values that are told apart by the facts that hold of them, all from one finite
set, are no more than there are subsets of it.
-/

namespace CoolLang

theorem length_le_two_pow_card {β φ : Type} [DecidableEq φ] {facts : Finset φ}
    (factsOf : β → Finset φ) {values : List β} (distinct : values.Nodup)
    (within : ∀ value ∈ values, factsOf value ⊆ facts)
    (determined : ∀ first ∈ values, ∀ second ∈ values,
      factsOf first = factsOf second → first = second) :
    values.length ≤ 2 ^ facts.card := by
  have distinctFacts : (values.map factsOf).Nodup :=
    List.Nodup.map_on (fun first inValues second inValues' same =>
      determined first inValues second inValues' same) distinct
  have covered : (values.map factsOf).toFinset ⊆ facts.powerset := by
    intro subset member
    rw [List.mem_toFinset] at member
    obtain ⟨value, inValues, rfl⟩ := List.mem_map.mp member
    exact Finset.mem_powerset.mpr (within value inValues)
  have counted := Finset.card_le_card covered
  rwa [List.toFinset_card_of_nodup distinctFacts, List.length_map,
    Finset.card_powerset] at counted

/-- Two lists in strict order are equal when they have the same members. -/
theorem eq_of_pairwise_of_mem_iff {β : Type} {before : β → β → Prop}
    (asymm : ∀ {first second}, before first second → ¬before second first)
    {left right : List β} (ordered : left.Pairwise before) (ordered' : right.Pairwise before)
    (same : ∀ value, value ∈ left ↔ value ∈ right) : left = right := by
  have distinct : ∀ values : List β, values.Pairwise before → values.Nodup := by
    intro values inOrder
    refine inOrder.imp ?_
    intro first second earlier equal
    subst equal
    exact asymm earlier earlier
  refine List.Perm.eq_of_pairwise ?_ ordered ordered' ?_
  · intro first second _ _ earlier later
    exact absurd later (asymm earlier)
  · exact (List.perm_ext_iff_of_nodup (distinct left ordered) (distinct right ordered')).mpr same

end CoolLang
