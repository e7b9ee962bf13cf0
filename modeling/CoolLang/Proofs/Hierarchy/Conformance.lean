import CoolLang.Proofs.Hierarchy.Overriding

/-!
Conformance as the rules of the language have it. A class conforms to those that its parents lead to
(`Hierarchy.Rooted.conforms_iff`), two classes join at the lowest of those that both conform to
(`Hierarchy.Rooted.joins_union`), and a method is the one of its name that is found first on the way up
(`Hierarchy.Rooted.calls_of_method?`).
-/

namespace CoolLang

open Relation

/-- The types whose values are only equal to those of their own type. -/
def primitives : List TypeId :=
  [.int, .string, .bool]

namespace Hierarchy

variable (hierarchy : Hierarchy)

/-- Whether a value of one class can stand where one of another is expected. -/
structure Conforms (type expected : TypeId) : Prop where
  isClass : hierarchy.IsClass type
  isClass' : hierarchy.IsClass expected
  inherits : ReflTransGen hierarchy.IsParent type expected

/-- Whether a class is the lowest to which all of these conform. -/
structure Joins (types : List TypeId) (join : TypeId) : Prop where
  isClass : hierarchy.IsClass join
  above : ∀ type ∈ types, hierarchy.Conforms type join
  lowest : ∀ other, (∀ type ∈ types, hierarchy.Conforms type other) → hierarchy.Conforms join other

/-- Whether a method is the one of its name that is found first on the way up from a class. -/
structure Calls (type : TypeId) (name : String) (method : Method) : Prop where
  isNamed : method.name = name
  found : ∃ owner, ReflTransGen hierarchy.IsParent type owner ∧ method ∈ (hierarchy.info owner).methods ∧
    ∀ nearer, ReflTransGen hierarchy.IsParent type nearer → TransGen hierarchy.IsParent nearer owner →
      ∀ other ∈ (hierarchy.info nearer).methods, other.name ≠ name

/-- Whether no class inherits from a primitive type. -/
def Sealed : Prop :=
  ∀ child, ∀ primitive ∈ primitives, ¬ hierarchy.IsParent child primitive

variable {hierarchy} {type parent left right lower upper : TypeId}

theorem IsClass.conforms_self (isClass : hierarchy.IsClass type) : hierarchy.Conforms type type :=
  ⟨isClass, isClass, .refl⟩

theorem IsClass.joins_self (isClass : hierarchy.IsClass type) : hierarchy.Joins [type] type :=
  ⟨isClass, List.forall_mem_singleton.mpr isClass.conforms_self,
    fun _ above => above type (List.mem_singleton_self type)⟩

namespace Rooted

variable (rooted : hierarchy.Rooted)
include rooted

/-! ### Ancestors -/

theorem mem_ancestors_iff (isClass : hierarchy.IsClass lower) :
    upper ∈ hierarchy.ancestors lower ↔ ReflTransGen hierarchy.IsParent lower upper := by
  constructor
  · intro member
    obtain ⟨steps, _, reached⟩ := mem_line_iff.mp member
    cases steps with
    | zero => exact Option.some.inj reached ▸ .refl
    | succ steps => exact (transGen_iff_climb.mpr ⟨steps, reached⟩).to_reflTransGen
  · intro way
    induction way with
    | refl => exact rooted.mem_ancestors_self isClass
    | @tail between upper _ step ih =>
        have isBetween := rooted.isClass_of_mem isClass ih
        have notObject : between ≠ .object := by
          rintro rfl
          exact nomatch rooted.top.symm.trans step
        obtain ⟨parent, isParent, isClass', above⟩ := rooted.exists_parent isBetween notObject
        obtain rfl : parent = upper := Option.some.inj (isParent.symm.trans step)
        refine rooted.ancestors_trans isClass ih (above ▸ List.mem_cons_of_mem _ ?_)
        exact rooted.mem_ancestors_self isClass'

/-- What comes after the first ancestor with a property is above that one. -/
theorem mem_ancestors_of_find? (isClass : hierarchy.IsClass lower) {p : TypeId → Bool} {found : TypeId} :
    (hierarchy.ancestors lower).find? p = some found → upper ∈ hierarchy.ancestors lower → p upper = true →
      upper ∈ hierarchy.ancestors found := by
  refine rooted.induction (motive := fun lower => (hierarchy.ancestors lower).find? p = some found →
    upper ∈ hierarchy.ancestors lower → p upper = true → upper ∈ hierarchy.ancestors found) ?_ ?_ isClass
  · intro isFound member _
    have isObject := List.mem_of_find?_eq_some isFound
    rw [rooted.ancestors_object, List.mem_singleton] at isObject
    exact isObject ▸ member
  · intro lower parent _ _ above ih isFound member isSuch
    cases isFirst : p lower with
    | true =>
        rw [above, List.find?_cons_of_pos isFirst] at isFound
        exact Option.some.inj isFound ▸ member
    | false =>
        rw [above, List.find?_cons_of_neg (by simp [isFirst])] at isFound
        rw [above] at member
        rcases List.mem_cons.mp member with rfl | member
        · rw [isFirst] at isSuch
          cases isSuch
        · exact ih isFound member isSuch

/-! ### Conformance -/

theorem conforms_iff (isLower : hierarchy.IsClass lower) (isUpper : hierarchy.IsClass upper) :
    hierarchy.conforms lower upper = true ↔ hierarchy.Conforms lower upper := by
  rw [isLower.conforms_iff isUpper, rooted.mem_ancestors_iff isLower]
  exact ⟨fun inherits => ⟨isLower, isUpper, inherits⟩, Conforms.inherits⟩

theorem conforms_of_mem (isClass : hierarchy.IsClass lower) (member : upper ∈ hierarchy.ancestors lower) :
    hierarchy.Conforms lower upper :=
  ⟨isClass, rooted.isClass_of_mem isClass member, (rooted.mem_ancestors_iff isClass).mp member⟩

/-! ### Joins -/

theorem union_lowest (ofLeft : hierarchy.IsClass left) (ofRight : hierarchy.IsClass right)
    (above : upper ∈ hierarchy.ancestors left) (above' : upper ∈ hierarchy.ancestors right) :
    upper ∈ hierarchy.ancestors (hierarchy.union left right) := by
  unfold union
  rw [ofLeft.isChecked, ofRight.isChecked, Bool.not_true, Bool.false_or, if_neg Bool.false_ne_true]
  split
  · exact above
  · have common : (hierarchy.ancestors left).contains upper = true := List.contains_iff_mem.mpr above
    cases isFound : (hierarchy.ancestors right).find? (hierarchy.ancestors left).contains with
    | none => exact absurd common (List.find?_eq_none.mp isFound upper above')
    | some found => exact rooted.mem_ancestors_of_find? ofRight isFound above' common

/-- A class joins others where their join and it have their union. -/
theorem joins_concat {types : List TypeId} {join : TypeId} (joins : hierarchy.Joins types join)
    (isClass : hierarchy.IsClass type) : hierarchy.Joins (types ++ [type]) (hierarchy.union join type) := by
  obtain ⟨ofJoin, above, lowest⟩ := joins
  obtain ⟨aboveJoin, aboveType⟩ := rooted.union_mem ofJoin isClass
  have toJoin := rooted.conforms_of_mem ofJoin aboveJoin
  refine ⟨toJoin.isClass', List.forall_mem_append.mpr ⟨fun other member => ?_,
    List.forall_mem_singleton.mpr (rooted.conforms_of_mem isClass aboveType)⟩, fun other isAbove => ?_⟩
  · have toType := above other member
    exact ⟨toType.isClass, toJoin.isClass', toType.inherits.trans toJoin.inherits⟩
  · obtain ⟨ofTypes, ofType⟩ := List.forall_mem_append.mp isAbove
    have ofType := ofType type (List.mem_singleton_self type)
    exact rooted.conforms_of_mem toJoin.isClass' (rooted.union_lowest ofJoin isClass
      ((rooted.mem_ancestors_iff ofJoin).mpr (lowest other ofTypes).inherits)
      ((rooted.mem_ancestors_iff isClass).mpr ofType.inherits))

theorem joins_union (ofLeft : hierarchy.IsClass left) (ofRight : hierarchy.IsClass right) :
    hierarchy.Joins [left, right] (hierarchy.union left right) :=
  rooted.joins_concat ofLeft.joins_self ofRight

/-! ### Methods -/

theorem calls_of_method? {name : String} {owner : TypeId} {method : Method} (isClass : hierarchy.IsClass type)
    (isFound : hierarchy.method? type name = some (owner, method)) : hierarchy.Calls type name method := by
  obtain ⟨member, isMethod, isOwn⟩ := method?_mem isFound
  refine ⟨TypeInfo.method?_name isMethod, owner, (rooted.mem_ancestors_iff isClass).mp member, isOwn, ?_⟩
  refine rooted.induction (motive := fun type => hierarchy.method? type name = some (owner, method) →
    ∀ nearer, ReflTransGen hierarchy.IsParent type nearer → TransGen hierarchy.IsParent nearer owner →
      ∀ other ∈ (hierarchy.info nearer).methods, other.name ≠ name) ?_ ?_ isClass isFound
  · intro _ nearer way below
    have isObject := (rooted.mem_ancestors_iff rooted.isClass_object).mpr way
    rw [rooted.ancestors_object, List.mem_singleton] at isObject
    obtain ⟨_, step, _⟩ := TransGen.head'_iff.mp (isObject ▸ below)
    exact nomatch rooted.top.symm.trans step
  · intro type parent isClass isClass' above ih isFound nearer way below other isOther
    rw [method?_of_ancestors above] at isFound
    cases isFirst : (hierarchy.info type).method? name with
    | some first =>
        rw [isFirst] at isFound
        obtain ⟨rfl, _⟩ := Prod.mk.inj (Option.some.inj isFound)
        exact absurd (TransGen.trans_right way below) rooted.not_transGen_self
    | none =>
        rw [isFirst] at isFound
        rcases ReflTransGen.cases_head way with rfl | ⟨next, step, way⟩
        · exact fun same => List.find?_eq_none.mp isFirst other isOther (beq_iff_eq.mpr same)
        · obtain rfl : next = parent := step.unique (rooted.parent?_of_ancestors isClass' above)
          exact ih isFound nearer way below other isOther

end Rooted

/-! ### Primitive types -/

/-- Only a primitive type itself conforms to it. -/
theorem Sealed.eq_of_conforms (sealed : hierarchy.Sealed) (conforms : hierarchy.Conforms type upper)
    (primitive : upper ∈ primitives) : type = upper := by
  cases conforms.inherits with
  | refl => rfl
  | tail _ step => exact absurd step (sealed _ upper primitive)

end Hierarchy

end CoolLang
