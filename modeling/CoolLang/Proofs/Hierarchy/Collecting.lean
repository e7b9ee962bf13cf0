import CoolLang.Proofs.Hierarchy.Renaming

/-!
Collecting classes of distinct names. Which class is where does not matter: each gets a type if nothing built in
has its name (`Hierarchy.types_collectAll`, `Hierarchy.faults_collectAll`). So the same classes in another order
get the same types under other numbers (`Hierarchy.Collected.renames`).
-/

namespace CoolLang

/-- Of distinct names only those that are taken from the beginning are not free. -/
theorem introduced_of_nodup {α : Type} {name : α → String} (taken : List String) {decls : List α}
    (apart : (decls.map name).Nodup) :
    introduced name taken decls = decls.filter fun decl => decide (name decl ∉ taken) := by
  induction decls generalizing taken with
  | nil => rfl
  | cons decl decls ih =>
      obtain ⟨isApart, apart⟩ := List.nodup_cons.mp apart
      rw [introduced]
      split
      · rename_i isTaken
        rw [List.filter_cons_of_neg (by simpa using isTaken), ih taken apart]
      · rename_i isFree
        rw [List.filter_cons_of_pos (by simpa using isFree), ih _ apart]
        refine congrArg (decl :: ·) (List.filter_congr fun other member => ?_)
        have different : name other ≠ name decl := fun same => isApart (same ▸ List.mem_map_of_mem member)
        simp only [List.mem_append, List.mem_singleton, different, or_false]

namespace Hierarchy

variable {hierarchy one two : Hierarchy} {type : TypeId} {name : String}

/-! ### Names -/

/-- A class whose name no type has yet. -/
theorem create_of_free (enough : 8 ≤ hierarchy.types.size) (free : hierarchy.find? name = none) :
    ∃ next, hierarchy.create name = .ok (⟨hierarchy.types.size⟩, next) ∧ 8 ≤ next.types.size ∧
      ∀ other, next.find? other =
        (hierarchy.find? other).or (if name = other then some ⟨hierarchy.types.size⟩ else none) := by
  refine ⟨⟨hierarchy.types.push (.named name)⟩, ?_, ?_, find?_push _ enough⟩
  · rw [create, free]
  · rw [Array.size_push]
    omega

theorem create_of_taken (taken : hierarchy.find? name = some type) :
    hierarchy.create name = .error (.duplicateType name) := by
  rw [create, taken]

/-- Names keep what they mean while more classes are collected. -/
theorem find?_collectAll (decls : List ClassDecl) (enough : 8 ≤ hierarchy.types.size)
    (found : hierarchy.find? name = some type) : (hierarchy.collectAll decls).1.find? name = some type := by
  induction decls generalizing hierarchy with
  | nil => exact found
  | cons decl decls ih =>
      rw [collectAll]
      cases isTaken : hierarchy.find? decl.name.name with
      | some other =>
          rw [create_of_taken isTaken]
          exact ih enough found
      | none =>
          obtain ⟨next, created, enough, names⟩ := create_of_free enough isTaken
          rw [created]
          exact ih enough (by rw [names, found, Option.some_or])

/-- After collecting, the names are those from before and those of the classes. -/
theorem isSome_find?_collectAll (decls : List ClassDecl) (enough : 8 ≤ hierarchy.types.size) (name : String) :
    ((hierarchy.collectAll decls).1.find? name).isSome ↔
      (hierarchy.find? name).isSome ∨ name ∈ decls.map ClassDecl.typeName := by
  induction decls generalizing hierarchy with
  | nil => exact (or_iff_left List.not_mem_nil).symm
  | cons decl decls ih =>
      rw [collectAll, List.map_cons, List.mem_cons, ← or_assoc]
      cases isTaken : hierarchy.find? decl.name.name with
      | some other =>
          rw [create_of_taken isTaken]
          refine (ih enough).trans (or_congr_left (or_iff_left_of_imp ?_).symm)
          rintro rfl
          exact Option.isSome_of_mem isTaken
      | none =>
          obtain ⟨next, created, enough, names⟩ := create_of_free enough isTaken
          rw [created]
          refine (ih enough).trans (or_congr_left ?_)
          rw [names, Option.isSome_or, Bool.or_eq_true]
          refine or_congr_right ?_
          split
          · exact iff_of_true rfl (Eq.symm ‹_›)
          · exact iff_of_false Bool.false_ne_true (Ne.symm ‹_›)

/-! ### Classes -/

/-- What collecting reports of a class of a name that no other class has. -/
def redefinition (hierarchy : Hierarchy) (decl : ClassDecl) : List Diagnostic :=
  if (hierarchy.find? decl.typeName).isSome then [⟨decl.name.position, .duplicateType decl.typeName⟩] else []

theorem types_collectAll {decls : List ClassDecl} (enough : 8 ≤ hierarchy.types.size)
    (apart : (decls.map ClassDecl.typeName).Nodup) :
    (hierarchy.collectAll decls).2.1 = decls.map fun decl =>
      if (hierarchy.find? decl.typeName).isSome then none
      else (hierarchy.collectAll decls).1.find? decl.typeName := by
  induction decls generalizing hierarchy with
  | nil => rfl
  | cons decl decls ih =>
      obtain ⟨isApart, apart⟩ := List.nodup_cons.mp apart
      rw [collectAll, List.map_cons]
      cases isTaken : hierarchy.find? decl.name.name with
      | some other =>
          rw [create_of_taken isTaken, if_pos (show (hierarchy.find? decl.typeName).isSome from
            Option.isSome_of_mem isTaken)]
          exact congrArg (none :: ·) (ih enough apart)
      | none =>
          obtain ⟨next, created, enough', names⟩ := create_of_free enough isTaken
          have isNew : next.find? decl.typeName = some ⟨hierarchy.types.size⟩ := by
            rw [names, show hierarchy.find? decl.typeName = none from isTaken, Option.none_or]
            exact if_pos rfl
          rw [created, show hierarchy.find? decl.typeName = none from isTaken, if_neg (by decide)]
          refine congrArg₂ List.cons (find?_collectAll decls enough' isNew).symm ((ih enough' apart).trans ?_)
          refine List.map_congr_left fun other member => ?_
          have different : decl.name.name ≠ other.typeName := fun same =>
            isApart (show decl.name.name ∈ _ from same ▸ List.mem_map_of_mem member)
          rw [names, if_neg different, Option.or_none]

theorem faults_collectAll {decls : List ClassDecl} (enough : 8 ≤ hierarchy.types.size)
    (apart : (decls.map ClassDecl.typeName).Nodup) :
    (hierarchy.collectAll decls).2.2 = decls.flatMap hierarchy.redefinition := by
  induction decls generalizing hierarchy with
  | nil => rfl
  | cons decl decls ih =>
      obtain ⟨isApart, apart⟩ := List.nodup_cons.mp apart
      rw [collectAll, List.flatMap_cons, redefinition]
      cases isTaken : hierarchy.find? decl.name.name with
      | some other =>
          rw [create_of_taken isTaken, if_pos (show (hierarchy.find? decl.typeName).isSome from
            Option.isSome_of_mem isTaken)]
          exact congrArg (_ :: ·) (ih enough apart)
      | none =>
          obtain ⟨next, created, enough', names⟩ := create_of_free enough isTaken
          rw [created, show hierarchy.find? decl.typeName = none from isTaken, if_neg (by decide)]
          refine (ih enough' apart).trans (List.flatMap_congr fun other member => ?_)
          have different : decl.name.name ≠ other.typeName := fun same =>
            isApart (show decl.name.name ∈ _ from same ▸ List.mem_map_of_mem member)
          rw [redefinition, redefinition, names, if_neg different, Option.or_none]

/-! ### Numbers -/

/-- The number of a type in another hierarchy, where it is found by its name. -/
def renumber (one two : Hierarchy) (type : TypeId) : TypeId :=
  if 8 ≤ type.index ∧ type.index < one.types.size then (two.find? (one.name type)).getD type else type

theorem renumber_builtin (small : type.index < 8) : renumber one two type = type :=
  if_neg fun both => absurd small (Nat.not_lt.mpr both.1)

theorem renumber_unknown (unknown : ¬type.index < one.types.size) : renumber one two type = type :=
  if_neg fun both => unknown both.2

section

variable (ofOne : one.Collected) (ofTwo : two.Collected) (size : two.types.size = one.types.size)
  (names : ∀ name, (two.find? name).isSome ↔ (one.find? name).isSome)
include ofOne ofTwo

theorem Collected.name_builtin (small : type.index < 8) : two.name type = one.name type :=
  congrArg TypeInfo.name ((ofTwo.first type small).trans (ofOne.first type small).symm)

include names

/-- A class of a program has a class of the program as its counterpart, of the same name. -/
theorem Collected.find?_counterpart (large : 8 ≤ type.index) (known : type.index < one.types.size) :
    ∃ other, two.find? (one.name type) = some other ∧ renumber one two type = other ∧ 8 ≤ other.index := by
  have notError : type ≠ .error := fun same => absurd (same ▸ large) (by decide)
  have found := ofOne.distinct type known notError
  obtain ⟨other, isFound⟩ := Option.isSome_iff_exists.mp ((names (one.name type)).mpr (Option.isSome_of_mem found))
  refine ⟨other, isFound, ?_, Nat.le_of_not_lt fun small => ?_⟩
  · rw [renumber, if_pos ⟨large, known⟩, isFound]
    rfl
  · obtain ⟨_, notError, isNamed⟩ := find?_known isFound
    have old := ofOne.distinct other (Nat.lt_of_lt_of_le small ofOne.builtins) notError
    rw [← ofOne.name_builtin ofTwo small, isNamed, found] at old
    cases old
    exact absurd small (Nat.not_lt.mpr large)

theorem Collected.find?_renumber (name : String) : two.find? name = (one.find? name).map (renumber one two) := by
  cases found : one.find? name with
  | none =>
      have isNone : ¬(two.find? name).isSome := fun isSome => by
        have isSome := (names name).mp isSome
        rw [found] at isSome
        cases isSome
      exact Option.not_isSome_iff_eq_none.mp isNone
  | some type =>
      obtain ⟨known, notError, rfl⟩ := find?_known found
      by_cases small : type.index < 8
      · have same := ofTwo.distinct type (Nat.lt_of_lt_of_le small ofTwo.builtins) notError
        rw [ofOne.name_builtin ofTwo small] at same
        rw [same, Option.map_some, renumber_builtin small]
      · obtain ⟨other, isFound, rfl, _⟩ := ofOne.find?_counterpart ofTwo names (Nat.le_of_not_lt small) known
        exact isFound

include size

/-- A class of a program keeps its name, and stays a class of a program. -/
theorem Collected.renumber_known (large : 8 ≤ type.index) (known : type.index < one.types.size) :
    8 ≤ (renumber one two type).index ∧ (renumber one two type).index < one.types.size ∧
      two.name (renumber one two type) = one.name type := by
  obtain ⟨other, found, rfl, large'⟩ := ofOne.find?_counterpart ofTwo names large known
  obtain ⟨known', _, isNamed⟩ := find?_known found
  exact ⟨large', size ▸ known', isNamed⟩

theorem Collected.renumber_injective {left right : TypeId}
    (same : renumber one two left = renumber one two right) : left = right := by
  have unknown {type : TypeId} (outside : ¬(8 ≤ type.index ∧ type.index < one.types.size)) :
      renumber one two type = type := if_neg outside
  have inside {type : TypeId} (known : 8 ≤ type.index ∧ type.index < one.types.size) :=
    ofOne.renumber_known ofTwo size names known.1 known.2
  have isFound {type : TypeId} (known : 8 ≤ type.index ∧ type.index < one.types.size) :
      one.find? (one.name type) = some type :=
    ofOne.distinct type known.2 fun isError => absurd (isError ▸ known.1) (by decide)
  by_cases ofLeft : 8 ≤ left.index ∧ left.index < one.types.size
  · obtain ⟨large, known, isLeft⟩ := inside ofLeft
    by_cases ofRight : 8 ≤ right.index ∧ right.index < one.types.size
    · have found := isFound ofLeft
      rw [← isLeft, same, (inside ofRight).2.2, isFound ofRight] at found
      exact (Option.some.inj found).symm
    · rw [same, unknown ofRight] at large known
      exact absurd ⟨large, known⟩ ofRight
  · by_cases ofRight : 8 ≤ right.index ∧ right.index < one.types.size
    · obtain ⟨large, known, _⟩ := inside ofRight
      rw [← same, unknown ofLeft] at large known
      exact absurd ⟨large, known⟩ ofLeft
    · rwa [unknown ofLeft, unknown ofRight] at same

theorem Collected.info_renumber (type : TypeId) :
    two.info (renumber one two type) = (one.info type).retype (renumber one two) := by
  by_cases small : type.index < 8
  · have parents : ∀ type ∈ initial.ids, ∀ parent ∈ (initial.info type).parent, parent.index < 8 := by
      decide
    obtain ⟨noAttributes, noMethods⟩ := ofOne.featureless type
    rw [ofOne.first type small] at noAttributes noMethods
    rw [renumber_builtin small, ofTwo.first type small, ofOne.first type small]
    refine (TypeInfo.retype_of_builtin (fun _ => renumber_builtin) (parents type (mem_ids.mpr small)) ?_ ?_).symm
    · rw [noAttributes]
      exact List.forall_mem_nil _
    · rw [noMethods]
      exact List.forall_mem_nil _
  · have large := Nat.le_of_not_lt small
    by_cases known : type.index < one.types.size
    · obtain ⟨large', _, same⟩ := ofOne.renumber_known ofTwo size names large known
      obtain ⟨name, isNamed⟩ := ofOne.exists_named large
      obtain ⟨name', isNamed'⟩ := ofTwo.exists_named large'
      rw [Hierarchy.name, Hierarchy.name, isNamed, isNamed'] at same
      obtain rfl : name' = name := same
      rw [isNamed, isNamed']
      rfl
    · have unknown (hierarchy : Hierarchy) (size : hierarchy.types.size = one.types.size) :
          hierarchy.info type = default := by
        rw [Hierarchy.info, Array.getElem?_eq_none (size ▸ Nat.le_of_not_lt known)]
        rfl
      rw [renumber_unknown known, unknown two size, unknown one rfl]
      rfl

/-- Two hierarchies in which the same names have been collected differ in the numbers of the classes only. -/
theorem Collected.renames : Renames (renumber one two) one two where
  builtin _ := renumber_builtin
  size := size
  known type := by
    by_cases inside : 8 ≤ type.index ∧ type.index < one.types.size
    · obtain ⟨_, known, _⟩ := ofOne.renumber_known ofTwo size names inside.1 inside.2
      exact iff_of_true (size ▸ known) inside.2
    · rw [show renumber one two type = type from if_neg inside, size]
  injective _ _ same := ofOne.renumber_injective ofTwo size names same
  find? := ofOne.find?_renumber ofTwo names
  info := ofOne.info_renumber ofTwo size names

end

end Hierarchy

end CoolLang
