import CoolLang.Proofs.Hierarchy.Ancestry

/-!
Hierarchies whose classes all lead up to `Object`. There the ancestors of a class are the class followed
by the ancestors of its parent, so that a proof about classes can go up from each to its parent
(`Hierarchy.Rooted.induction`). Conformance is an order, and the union of two classes is above both
(`Hierarchy.Rooted.union_mem`).
-/

namespace CoolLang

namespace Hierarchy

/-- Whether a type is a class, and not a sentinel or a number that no type has. -/
structure IsClass (hierarchy : Hierarchy) (type : TypeId) : Prop where
  concrete : type.isConcrete = true
  known : type.index < hierarchy.types.size

/-- Every class has `Object` among its ancestors, and above `Object` there is nothing. -/
structure Rooted (hierarchy : Hierarchy) : Prop where
  builtins : 8 ≤ hierarchy.types.size
  top : hierarchy.parent? .object = none
  parents : ∀ child parent, hierarchy.parent? child = some parent → hierarchy.IsClass parent
  reaches : ∀ type, hierarchy.IsClass type → TypeId.object ∈ hierarchy.ancestors type

/-- The number of classes on the way up to `Object`. -/
def height (hierarchy : Hierarchy) (type : TypeId) : Nat :=
  (hierarchy.ancestors type).length

variable {hierarchy : Hierarchy} {type parent left right lower upper : TypeId}

theorem line_none (count : Nat) : hierarchy.line count none = [] := by
  cases count <;> rfl

theorem length_line_le (count : Nat) (start : Option TypeId) :
    (hierarchy.line count start).length ≤ count := by
  induction count generalizing start with
  | zero => exact Nat.le_refl 0
  | succ count ih =>
      cases start with
      | none => exact Nat.zero_le _
      | some type => exact Nat.succ_le_succ (ih _)

/-- A line that has come to its end gets no longer. -/
theorem line_add {last : TypeId} (ends : hierarchy.parent? last = none) (more : Nat) {count : Nat}
    {start : Option TypeId} (member : last ∈ hierarchy.line count start) :
    hierarchy.line (count + more) start = hierarchy.line count start := by
  induction count generalizing start with
  | zero => cases member
  | succ count ih =>
      cases start with
      | none => rw [line_none, line_none]
      | some type =>
          rw [Nat.add_right_comm, line, line]
          rcases List.mem_cons.mp member with rfl | above
          · rw [ends, line_none, line_none]
          · rw [ih above]

theorem height_le (hierarchy : Hierarchy) (type : TypeId) :
    hierarchy.height type ≤ hierarchy.types.size :=
  length_line_le _ _

theorem IsClass.isChecked (isClass : hierarchy.IsClass type) : type.isChecked = true := by
  have concrete := isClass.concrete
  simp only [TypeId.isConcrete, Bool.and_eq_true] at concrete
  exact Bool.and_eq_true_iff.mpr ⟨concrete.2, concrete.1.2⟩

/-- Classes conform to their ancestors. -/
theorem IsClass.conforms_iff (isLower : hierarchy.IsClass lower) (isUpper : hierarchy.IsClass upper) :
    hierarchy.conforms lower upper = true ↔ upper ∈ hierarchy.ancestors lower := by
  rw [conforms, isLower.isChecked, isUpper.isChecked, Bool.not_true, Bool.false_or, Bool.false_or,
    List.contains_iff_mem]

theorem IsClass.union_self (isClass : hierarchy.IsClass type) : hierarchy.union type type = type := by
  rw [union, isClass.isChecked, beq_self_eq_true]
  rfl

/-- The union of two classes is the first ancestor of one that is an ancestor of the other. -/
theorem IsClass.union_of_ne (ofLeft : hierarchy.IsClass left) (ofRight : hierarchy.IsClass right)
    (differ : left ≠ right) : hierarchy.union left right =
      ((hierarchy.ancestors right).find? (hierarchy.ancestors left).contains).getD .object := by
  rw [union, ofLeft.isChecked, ofRight.isChecked, beq_eq_false_iff_ne.mpr differ]
  rfl

namespace Rooted

variable (rooted : hierarchy.Rooted)
include rooted

theorem positive : 0 < hierarchy.types.size :=
  Nat.lt_of_lt_of_le (by decide) rooted.builtins

theorem isClass_builtin {type : TypeId} (concrete : type.isConcrete = true) (builtin : type.index < 8) :
    hierarchy.IsClass type :=
  ⟨concrete, Nat.lt_of_lt_of_le builtin rooted.builtins⟩

theorem isClass_object : hierarchy.IsClass .object :=
  rooted.isClass_builtin rfl (by decide)

theorem ancestors_object : hierarchy.ancestors .object = [.object] := by
  obtain ⟨count, size⟩ := Nat.exists_eq_succ_of_ne_zero (Nat.ne_of_gt rooted.positive)
  rw [ancestors, size, line, rooted.top, line_none]

/-- Above a class other than `Object` there is its parent. -/
theorem exists_parent (isClass : hierarchy.IsClass type) (below : type ≠ .object) :
    ∃ parent, hierarchy.parent? type = some parent ∧ hierarchy.IsClass parent ∧
      hierarchy.ancestors type = type :: hierarchy.ancestors parent := by
  have reaches := rooted.reaches type isClass
  obtain ⟨count, size⟩ := Nat.exists_eq_succ_of_ne_zero (Nat.ne_of_gt rooted.positive)
  rw [ancestors, size, line] at reaches ⊢
  have above := (List.mem_cons.mp reaches).resolve_left (Ne.symm below)
  cases isParent : hierarchy.parent? type with
  | none =>
      rw [isParent, line_none] at above
      cases above
  | some parent =>
      rw [isParent] at above
      refine ⟨parent, rfl, rooted.parents type parent isParent, ?_⟩
      rw [ancestors, size, Nat.succ_eq_add_one, line_add rooted.top 1 above]

/-- What holds of `Object`, and of a class if it holds of the parent, holds of every class. -/
theorem induction {motive : TypeId → Prop} (object : motive .object)
    (child : ∀ type parent, hierarchy.IsClass type → hierarchy.IsClass parent →
      hierarchy.ancestors type = type :: hierarchy.ancestors parent → motive parent → motive type)
    (isClass : hierarchy.IsClass type) : motive type := by
  induction tall : hierarchy.height type generalizing type with
  | zero =>
      have empty := List.length_eq_zero_iff.mp tall
      have reaches := rooted.reaches type isClass
      rw [empty] at reaches
      cases reaches
  | succ count ih =>
      by_cases isObject : type = .object
      · exact isObject ▸ object
      · obtain ⟨parent, _, isClass', above⟩ := rooted.exists_parent isClass isObject
        rw [height, above, List.length_cons] at tall
        exact child type parent isClass isClass' above (ih isClass' (Nat.succ.inj tall))

theorem isClass_of_mem (isClass : hierarchy.IsClass lower) (member : upper ∈ hierarchy.ancestors lower) :
    hierarchy.IsClass upper :=
  ancestors_of rooted.parents isClass upper member

theorem mem_ancestors_self (isClass : hierarchy.IsClass type) : type ∈ hierarchy.ancestors type := by
  refine rooted.induction (motive := fun type => type ∈ hierarchy.ancestors type) ?_ ?_ isClass
  · rw [rooted.ancestors_object]
    exact List.mem_singleton_self _
  · intro type parent _ _ above _
    rw [above]
    exact List.mem_cons_self

/-- The ancestors of an ancestor are the last ones. -/
theorem ancestors_suffix (isClass : hierarchy.IsClass lower) :
    upper ∈ hierarchy.ancestors lower → hierarchy.ancestors upper <:+ hierarchy.ancestors lower := by
  refine rooted.induction (motive := fun lower => upper ∈ hierarchy.ancestors lower →
    hierarchy.ancestors upper <:+ hierarchy.ancestors lower) ?_ ?_ isClass
  · intro member
    rw [rooted.ancestors_object, List.mem_singleton] at member
    exact member ▸ List.suffix_rfl
  · intro lower parent _ _ above ih member
    rw [above] at member ⊢
    rcases List.mem_cons.mp member with rfl | member
    · exact above ▸ List.suffix_rfl
    · exact (ih member).trans (List.suffix_cons lower _)

theorem ancestors_trans {type : TypeId} (isClass : hierarchy.IsClass lower)
    (member : upper ∈ hierarchy.ancestors lower) (above : type ∈ hierarchy.ancestors upper) :
    type ∈ hierarchy.ancestors lower :=
  (rooted.ancestors_suffix isClass member).subset above

theorem height_le_of_mem (isClass : hierarchy.IsClass lower) (member : upper ∈ hierarchy.ancestors lower) :
    hierarchy.height upper ≤ hierarchy.height lower :=
  (rooted.ancestors_suffix isClass member).length_le

/-- Only a class itself is among its ancestors and as high as the class. -/
theorem eq_of_height_eq (isClass : hierarchy.IsClass lower) (member : upper ∈ hierarchy.ancestors lower)
    (same : hierarchy.height upper = hierarchy.height lower) : upper = lower := by
  have whole := (rooted.ancestors_suffix isClass member).eq_of_length same
  by_cases isObject : lower = .object
  · rw [isObject, rooted.ancestors_object, List.mem_singleton] at member
    exact member.trans isObject.symm
  · obtain ⟨parent, _, isClass', above⟩ := rooted.exists_parent isClass isObject
    rw [above] at member
    rcases List.mem_cons.mp member with same | member
    · exact same
    · have shorter := rooted.height_le_of_mem isClass' member
      rw [height, whole, above, List.length_cons] at shorter
      exact absurd shorter (Nat.not_succ_le_self _)

theorem ancestors_antisymm (isClass : hierarchy.IsClass lower) (up : upper ∈ hierarchy.ancestors lower)
    (down : lower ∈ hierarchy.ancestors upper) : upper = lower :=
  rooted.eq_of_height_eq isClass up (Nat.le_antisymm (rooted.height_le_of_mem isClass up)
    (rooted.height_le_of_mem (rooted.isClass_of_mem isClass up) down))

/-- The union of two classes is an ancestor of both. -/
theorem union_mem (ofLeft : hierarchy.IsClass left) (ofRight : hierarchy.IsClass right) :
    hierarchy.union left right ∈ hierarchy.ancestors left ∧
      hierarchy.union left right ∈ hierarchy.ancestors right := by
  by_cases same : left = right
  · subst same
    rw [ofLeft.union_self]
    exact ⟨rooted.mem_ancestors_self ofLeft, rooted.mem_ancestors_self ofLeft⟩
  · rw [ofLeft.union_of_ne ofRight same]
    cases common : (hierarchy.ancestors right).find? (hierarchy.ancestors left).contains with
    | none => exact ⟨rooted.reaches left ofLeft, rooted.reaches right ofRight⟩
    | some found =>
        exact ⟨List.contains_iff_mem.mp (List.find?_some common), List.mem_of_find?_eq_some common⟩

theorem isClass_union (ofLeft : hierarchy.IsClass left) (ofRight : hierarchy.IsClass right) :
    hierarchy.IsClass (hierarchy.union left right) :=
  rooted.isClass_of_mem ofLeft (rooted.union_mem ofLeft ofRight).1

end Rooted

end Hierarchy

end CoolLang
