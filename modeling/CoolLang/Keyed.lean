/-!
Values by key, in the order in which the keys were first used.
-/

namespace CoolLang

abbrev Keyed (κ β : Type) := List (κ × β)

namespace Keyed

variable {κ β : Type} [DecidableEq κ]

/-- Changes the value of a key. A new key comes last, with what `change` makes of the given value. -/
def update (key : κ) (missing : β) (change : β → β) : Keyed κ β → Keyed κ β
  | [] => [(key, change missing)]
  | entry :: entries =>
      if entry.1 = key then (key, change entry.2) :: entries else entry :: update key missing change entries

/-- Puts a value under a key: in the place of what is there, or else at the end. -/
def insert (key : κ) (value : β) (entries : Keyed κ β) : Keyed κ β :=
  entries.update key value fun _ => value

variable {entries : Keyed κ β} {key : κ} {missing : β} {change : β → β}

/-- A key that no entry has is put at the end. -/
theorem update_of_forall_ne (isNew : ∀ entry ∈ entries, entry.1 ≠ key) :
    entries.update key missing change = entries ++ [(key, change missing)] := by
  induction entries with
  | nil => rfl
  | cons entry entries ih =>
      have different : entry.1 ≠ key := isNew entry List.mem_cons_self
      rw [update, if_neg different, ih fun entry member => isNew entry (List.mem_cons_of_mem _ member),
        List.cons_append]

theorem insert_of_forall_ne (value : β) (isNew : ∀ entry ∈ entries, entry.1 ≠ key) :
    entries.insert key value = entries ++ [(key, value)] :=
  update_of_forall_ne isNew

/-- What the change keeps of a value holds of all values that it holds of before. -/
theorem forall_mem_update (holds : κ → β → Prop) (all : ∀ entry ∈ entries, holds entry.1 entry.2)
    (ofMissing : holds key (change missing)) (ofKnown : ∀ value, holds key value → holds key (change value)) :
    ∀ entry ∈ entries.update key missing change, holds entry.1 entry.2 := by
  induction entries with
  | nil =>
      intro entry member
      cases List.mem_singleton.mp member
      exact ofMissing
  | cons first entries ih =>
      have later := ih fun entry member => all entry (List.mem_cons_of_mem _ member)
      have isFirst := all first List.mem_cons_self
      intro entry member
      rw [update] at member
      split at member
      · rename_i same
        rcases List.mem_cons.mp member with rfl | member
        · exact ofKnown first.2 (same ▸ isFirst)
        · exact all entry (List.mem_cons_of_mem _ member)
      · rcases List.mem_cons.mp member with rfl | member
        · exact isFirst
        · exact later entry member

/-- The key that is changed has a value that the change has made. -/
theorem exists_mem_update (entries : Keyed κ β) (key : κ) (missing : β) (change : β → β) :
    ∃ value, (key, change value) ∈ entries.update key missing change := by
  induction entries with
  | nil => exact ⟨missing, List.mem_singleton_self _⟩
  | cons first entries ih =>
      rw [update]
      split
      · exact ⟨first.2, List.mem_cons_self⟩
      · obtain ⟨value, member⟩ := ih
        exact ⟨value, List.mem_cons_of_mem _ member⟩

theorem lookup_insert (entries : Keyed κ β) (key : κ) (value : β) (other : κ) :
    (entries.insert key value).lookup other = if other = key then some value else entries.lookup other := by
  unfold insert
  induction entries with
  | nil =>
      rw [update, List.lookup_cons]
      by_cases same : other = key
      · simp [same]
      · simp [same, beq_false_of_ne same]
  | cons entry entries ih =>
      obtain ⟨first, old⟩ := entry
      rw [update]
      dsimp only
      by_cases isFirst : first = key
      · subst isFirst
        rw [if_pos rfl, List.lookup_cons, List.lookup_cons]
        by_cases same : other = first
        · simp [same]
        · simp [same, beq_false_of_ne same]
      · rw [if_neg isFirst, List.lookup_cons, List.lookup_cons, ih]
        by_cases same : other = key
        · simp [same, beq_false_of_ne (Ne.symm isFirst)]
        · simp [same]

/-- A value is put in the place of the one under its key, if there is one. -/
theorem insert_eq_map (value : β) (distinct : (entries.map Prod.fst).Nodup) (taken : key ∈ entries.map Prod.fst) :
    entries.insert key value = entries.map fun entry => if entry.1 = key then (key, value) else entry := by
  unfold insert
  induction entries with
  | nil => cases taken
  | cons entry entries ih =>
      obtain ⟨absent, distinct⟩ := List.nodup_cons.mp distinct
      rw [update, List.map_cons]
      by_cases isFirst : entry.1 = key
      · rw [if_pos isFirst, if_pos isFirst]
        refine congrArg _ ((List.map_id _).symm.trans (List.map_congr_left fun other member => (if_neg ?_).symm))
        rintro rfl
        exact absent (isFirst ▸ List.mem_map_of_mem member)
      · rw [if_neg isFirst, if_neg isFirst]
        exact congrArg _ (ih distinct ((List.mem_cons.mp taken).resolve_left (Ne.symm isFirst)))

theorem isSome_lookup_iff : (entries.lookup key).isSome ↔ key ∈ entries.map Prod.fst := by
  induction entries with
  | nil => simp
  | cons entry entries ih =>
      rw [List.lookup_cons, List.map_cons, List.mem_cons]
      by_cases isFirst : key = entry.1
      · simp [isFirst]
      · simp [beq_false_of_ne isFirst, isFirst, ← ih]

end Keyed

end CoolLang
