import CoolLang.Grammar.Rounds
import CoolLang.Proofs.Grammar.First

/-!
The growth that a round reports is exact: a round leaves what the plain round leaves, and it reports
growth exactly if that is not what it started from. So where one more round changes nothing, the loop
that repeats the round has ended (`exists_repeats`).
-/

namespace CoolLang

variable {α β : Type}

/-! ### Single sets -/

namespace TerminalSet

theorem eq_of_size_eq {inner outer : TerminalSet} (included : inner.Included outer)
    (sameSize : outer.size = inner.size) : outer = inner := by
  have nodup (set : TerminalSet) : set.toList.Nodup :=
    set.toList_pairwise_lt.imp Nat.ne_of_lt
  have listed : inner.toList.Subperm outer.toList := by
    apply List.subperm_of_subset (nodup inner)
    intro terminal member
    exact mem_toList.mpr (included terminal (mem_toList.mp member))
  have perm := listed.perm_of_length_le (Nat.le_of_eq sameSize)
  ext terminal
  rw [← mem_toList, ← mem_toList, perm.mem_iff]

theorem absorb_eq (set other : TerminalSet) :
    set.absorb other = (set ∪ other, decide (set ∪ other ≠ set)) := by
  have grown : set ∪ other = set ↔ (set ∪ other).size = set.size := by
    constructor
    · intro same
      rw [same]
    · apply eq_of_size_eq
      intro terminal member
      exact mem_union.mpr (Or.inl member)
  simp [absorb, grown, bne, Bool.beq_eq_decide_eq]

end TerminalSet

theorem FirstSet.absorb_eq (set other : FirstSet) :
    set.absorb other = (set ∪ other, decide (set ∪ other ≠ set)) := by
  obtain ⟨terminals, epsilon⟩ := set
  obtain ⟨terminals', epsilon'⟩ := other
  have union : (⟨terminals, epsilon⟩ ∪ ⟨terminals', epsilon'⟩ : FirstSet) =
      ⟨terminals ∪ terminals', epsilon || epsilon'⟩ := rfl
  rw [union]
  cases epsilon <;> cases epsilon' <;> simp [FirstSet.absorb, TerminalSet.absorb_eq]

/-- Where absorbing one set reports growth exactly, so does absorbing it into an entry. -/
theorem absorbAt_eq [DecidableEq β] {absorb : β → β → β × Bool} {join : β → β → β}
    (exact : ∀ set other, absorb set other = (join set other, decide (join set other ≠ set)))
    (sets : List β) (place : Nat) (other : β) :
    absorbAt absorb sets place other =
      (sets.modify place (join · other), decide (sets.modify place (join · other) ≠ sets)) := by
  unfold absorbAt
  cases found : sets[place]? with
  | none =>
      have outside : sets.length ≤ place := List.getElem?_eq_none_iff.mp found
      rw [List.modify_eq_self outside]
      simp
  | some set =>
      have changed : sets.modify place (join · other) = sets.set place (join set other) := by
        rw [List.modify_eq_set_getElem?, found]
        rfl
      have unchanged : sets.set place (join set other) = sets ↔ join set other = set := by
        obtain ⟨inside, rfl⟩ := List.getElem?_eq_some_iff.mp found
        constructor
        · intro unchanged
          have place := congrArg (·[place]?) unchanged
          simpa [inside] using place
        · intro same
          rw [same, List.set_getElem_self]
      simp only [exact, changed, ne_eq, unchanged]

/-! ### Rounds -/

/-- A fold of steps that report growth exactly reports growth exactly, if no step takes anything
away. -/
theorem foldl_reports {ι : Type} [DecidableEq β] {below : β → β → Prop} {step : β → ι → β}
    {report : β × Bool → ι → β × Bool} (refl : ∀ value, below value value)
    (trans : ∀ {first second third}, below first second → below second third → below first third)
    (antisymm : ∀ {first second}, below first second → below second first → first = second)
    (grows : ∀ value item, below value (step value item))
    (exact : ∀ value grown item,
      report (value, grown) item = (step value item, grown || decide (step value item ≠ value)))
    (items : List ι) (value : β) (grown : Bool) :
    items.foldl report (value, grown) =
      (items.foldl step value, grown || decide (items.foldl step value ≠ value)) := by
  induction items generalizing value grown with
  | nil => simp
  | cons item items ih =>
      have later := below_foldl refl trans grows items (step value item)
      rw [List.foldl_cons, List.foldl_cons, exact, ih]
      by_cases same : step value item = value
      · simp [same]
      · -- what the first step adds, the others keep
        have different : items.foldl step (step value item) ≠ value := by
          intro back
          rw [back] at later
          exact same (antisymm later (grows value item))
        simp [same, different]

namespace FirstSets

theorem reportRule_eq (sets : FirstSets) (grown : Bool) (numbered : Rule α × RuleId) :
    reportRule (sets, grown) numbered =
      (sets.absorbRule numbered, grown || decide (sets.absorbRule numbered ≠ sets)) := by
  obtain ⟨count, nonterminals, rules⟩ := sets
  simp only [reportRule, absorbAt_eq FirstSet.absorb_eq, absorbRule, ne_eq, mk.injEq, true_and,
    Bool.or_assoc, ← Bool.decide_or, ← not_and_or, and_comm]

theorem reportRound_eq (grammar : Grammar α) (sets : FirstSets) :
    reportRound grammar sets = (propagate grammar sets, decide (propagate grammar sets ≠ sets)) :=
  foldl_reports .refl .trans Included.antisymm included_absorbRule reportRule_eq
    grammar.numberedRules sets false

end FirstSets

/-! ### Loops -/

/-- Where saturation has come to a fixed point, the loop ends there. -/
theorem exists_repeats [DecidableEq β] {round : β → β} {report : β → β × Bool}
    (exact : ∀ value, report value = (round value, decide (round value ≠ value))) {limit : Nat}
    {value : β} (fixed : round (saturate round limit value) = saturate round limit value) :
    ∃ rounds ≤ limit, Repeats report rounds value (saturate round limit value) := by
  induction limit generalizing value with
  | zero =>
      refine ⟨0, Nat.le_refl 0, .stop ?_⟩
      rw [saturate] at fixed ⊢
      simp [exact, fixed]
  | succ limit ih =>
      unfold saturate at fixed ⊢
      dsimp only at fixed ⊢
      by_cases same : round value = value
      · rw [if_pos same]
        refine ⟨0, Nat.zero_le _, .stop ?_⟩
        simp [exact, same]
      · rw [if_neg same] at fixed ⊢
        obtain ⟨rounds, few, repeats⟩ := ih fixed
        refine ⟨rounds + 1, Nat.succ_le_succ few, .again ?_ repeats⟩
        simp [exact, same]

end CoolLang
