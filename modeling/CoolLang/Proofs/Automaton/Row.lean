import CoolLang.Proofs.Automaton.Prescription

/-!
Rows of a table. However a row is filled, it has one cell for each key, no cell is empty and no value is
in a cell twice (`TableRow.Regular`). The first value of a cell is the one that was registered first
(`TableRow.head?_cell_registerAll`). A row becomes crowded with a registration exactly if it was so
before or the cell has more than one value now (`TableRow.isEmpty_crowded_register`), so one look at
each cell that changes is enough to know.
-/

namespace CoolLang

namespace TableRow

variable {κ ν : Type} {row : TableRow κ ν} {key : κ} {value : ν}

/-- What every row that was filled value by value satisfies. -/
structure Regular (row : TableRow κ ν) : Prop where
  distinct : (row.map Prod.fst).Nodup
  filled : ∀ entry ∈ row, entry.2 ≠ []
  unrepeated : ∀ entry ∈ row, entry.2.Nodup

theorem Regular.nil : Regular ([] : TableRow κ ν) where
  distinct := List.nodup_nil
  filled := by intro entry impossible; cases impossible
  unrepeated := by intro entry impossible; cases impossible

variable [DecidableEq κ]

namespace Regular

theorem cell_eq (regular : row.Regular) {entry : κ × List ν} (member : entry ∈ row) :
    row.cell entry.1 = entry.2 := by
  have distinct := regular.distinct
  clear regular
  induction row with
  | nil => cases member
  | cons first row ih =>
      obtain ⟨known, values⟩ := first
      rw [List.map_cons, List.nodup_cons] at distinct
      rw [cell_cons]
      rcases List.mem_cons.mp member with rfl | inRow
      · exact if_pos rfl
      · have different : known ≠ entry.1 := by
          intro same
          exact distinct.1 (List.mem_map.mpr ⟨entry, inRow, same.symm⟩)
        rw [if_neg different]
        exact ih inRow distinct.2

theorem mem_iff (regular : row.Regular) {values : List ν} :
    (key, values) ∈ row ↔ values ≠ [] ∧ row.cell key = values := by
  constructor
  · intro member
    exact ⟨regular.filled _ member, regular.cell_eq member⟩
  · rintro ⟨filled, rfl⟩
    unfold cell at filled ⊢
    cases found : row.find? fun entry => entry.1 == key with
    | none =>
        rw [found] at filled
        exact absurd rfl filled
    | some entry =>
        have isKey : entry.1 = key := eq_of_beq (List.find?_some found :)
        rw [← isKey]
        exact List.mem_of_find?_eq_some found

theorem nodup_cell (regular : row.Regular) (key : κ) : (row.cell key).Nodup := by
  unfold cell
  cases found : row.find? fun entry => entry.1 == key with
  | none => exact List.nodup_nil
  | some entry => exact regular.unrepeated entry (List.mem_of_find?_eq_some found)

theorem isEmpty_crowded_iff (regular : row.Regular) :
    row.crowded.isEmpty = true ↔ ∀ key, (row.cell key).length ≤ 1 := by
  constructor
  · exact length_cell_le_one
  · intro few
    rw [List.isEmpty_iff, crowded, List.filter_eq_nil_iff]
    intro entry member
    have atMost := few entry.1
    rw [regular.cell_eq member] at atMost
    simpa using atMost

end Regular

theorem all_isEmpty_crowded_iff {rows : Array (TableRow κ ν)}
    (regular : ∀ row ∈ rows, row.Regular) :
    (rows.all fun row => row.crowded.isEmpty) = true ↔
      ∀ (place : Nat) (key : κ), ((rows[place]?.getD []).cell key).length ≤ 1 := by
  rw [Array.all_eq_true_iff_forall_mem]
  constructor
  · intro free place key
    cases found : rows[place]? with
    | none => exact Nat.zero_le _
    | some row => exact length_cell_le_one (free row (Array.mem_of_getElem? found)) key
  · intro few row member
    obtain ⟨place, found⟩ := Array.mem_iff_getElem?.mp member
    rw [(regular row member).isEmpty_crowded_iff]
    intro key
    have atMost := few place key
    rw [found] at atMost
    exact atMost

variable [DecidableEq ν]

theorem mem_keys_register {other : κ} :
    other ∈ (row.register key value).map Prod.fst ↔ other = key ∨ other ∈ row.map Prod.fst := by
  induction row with
  | nil => simp [register]
  | cons first row ih =>
      obtain ⟨known, values⟩ := first
      unfold register
      by_cases same : known = key
      · subst same
        simp
      · rw [if_neg same, List.map_cons, List.mem_cons, ih, List.map_cons, List.mem_cons]
        exact or_left_comm

theorem Regular.register (regular : row.Regular) (key : κ) (value : ν) :
    (row.register key value).Regular := by
  induction row with
  | nil =>
      refine ⟨List.nodup_singleton key, ?_, ?_⟩
      · intro entry member
        cases List.mem_singleton.mp member
        exact List.cons_ne_nil _ _
      · intro entry member
        cases List.mem_singleton.mp member
        exact List.nodup_singleton value
  | cons first row ih =>
      obtain ⟨known, values⟩ := first
      obtain ⟨distinct, filled, unrepeated⟩ := regular
      rw [List.map_cons, List.nodup_cons] at distinct
      rw [List.forall_mem_cons] at filled unrepeated
      unfold TableRow.register
      by_cases same : known = key
      · rw [if_pos same]
        refine ⟨List.nodup_cons.mpr distinct, ?_, ?_⟩
        · rw [List.forall_mem_cons]
          refine ⟨?_, filled.2⟩
          split
          · exact filled.1
          · exact List.append_ne_nil_of_right_ne_nil _ (List.cons_ne_nil _ _)
        · rw [List.forall_mem_cons]
          refine ⟨?_, unrepeated.2⟩
          split
          · exact unrepeated.1
          · rename_i new
            rw [List.nodup_append]
            refine ⟨unrepeated.1, List.nodup_singleton value, ?_⟩
            rintro other present _ isValue rfl
            rw [List.mem_singleton.mp isValue] at present
            exact new present
      · rw [if_neg same]
        have others := ih ⟨distinct.2, filled.2, unrepeated.2⟩
        refine ⟨?_, ?_, ?_⟩
        · rw [List.map_cons, List.nodup_cons, mem_keys_register]
          exact ⟨not_or.mpr ⟨same, distinct.1⟩, others.distinct⟩
        · exact List.forall_mem_cons.mpr ⟨filled.1, others.filled⟩
        · exact List.forall_mem_cons.mpr ⟨unrepeated.1, others.unrepeated⟩

theorem Regular.registerAll (regular : row.Regular) (entries : List (κ × ν)) :
    (row.registerAll entries).Regular :=
  foldl_preserves (fun current : TableRow κ ν => current.Regular)
    (fun _ entry _ current => current.register entry.1 entry.2) regular

/-- The first value of a cell is the first one registered for its key. -/
theorem head?_cell_registerAll (row : TableRow κ ν) (entries : List (κ × ν)) (key : κ) :
    ((row.registerAll entries).cell key).head? =
      (row.cell key).head?.or ((entries.find? fun entry => entry.1 == key).map Prod.snd) := by
  induction entries generalizing row with
  | nil => exact Option.or_none.symm
  | cons entry entries ih =>
      obtain ⟨known, value⟩ := entry
      have step : row.registerAll ((known, value) :: entries) =
          (row.register known value).registerAll entries := rfl
      rw [step, ih, cell_register, List.find?_cons]
      by_cases same : known = key
      · subst same
        rw [if_pos rfl, beq_self_eq_true]
        cases values : row.cell known with
        | nil => rfl
        | cons first others => split <;> rfl
      · rw [if_neg same, beq_eq_false_iff_ne.mpr same]

/-- Registering a value crowds a row exactly if the value's cell holds another one too. -/
theorem isEmpty_crowded_register (row : TableRow κ ν) (key : κ) (value : ν) :
    (row.register key value).crowded.isEmpty =
      (row.crowded.isEmpty && ((row.register key value).cell key).length == 1) := by
  induction row with
  | nil =>
      rw [register, cell_cons, if_pos rfl]
      rfl
  | cons first row ih =>
      obtain ⟨known, values⟩ := first
      unfold register
      by_cases same : known = key
      · rw [if_pos same, cell_cons, if_pos same]
        unfold crowded
        rw [List.filter_cons, List.filter_cons]
        by_cases present : value ∈ values
        · have filled := List.length_pos_of_mem present
          simp only [if_pos present, decide_eq_true_eq]
          split
          · simp
          · rename_i few
            rw [show values.length = 1 by omega]
            simp
        · simp only [if_neg present, decide_eq_true_eq, List.length_append,
            List.length_singleton]
          cases values with
          | nil => simp
          | cons first others => simp
      · rw [if_neg same, cell_cons, if_neg same]
        unfold crowded at ih ⊢
        rw [List.filter_cons, List.filter_cons]
        split
        · rfl
        · exact ih

end TableRow

end CoolLang
