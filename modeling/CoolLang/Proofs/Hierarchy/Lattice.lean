import CoolLang.Proofs.Hierarchy.Tree
import CoolLang.Proofs.Hierarchy.Conformance
import Mathlib.Data.Fintype.Card

/-!
Conformance as an order. In a hierarchy of any shape, cycles included, the ancestors of a type are what its
parents lead to: the cut that ends the line comes after the last of them (`Hierarchy.mem_ancestors_iff_inherits`).
Where the classes are a tree with `Object` at its root, conformance is a partial order on them in which any two
have a least upper bound, their union, so that many classes have the same union in every order
(`Hierarchy.conforms_order_union_join`).
-/

namespace CoolLang

open Relation

namespace Hierarchy

variable {hierarchy : Hierarchy} {type found lower upper left right : TypeId}

/-! ### Every ancestor is on the line -/

/-- A number that no type has leads nowhere. -/
theorem IsParent.known (step : hierarchy.IsParent lower upper) : lower.index < hierarchy.types.size := by
  by_contra unknown
  rw [IsParent, parent?, info, Array.getElem?_eq_none (Nat.le_of_not_lt unknown)] at step
  cases step

theorem reflTransGen_iff_climb :
    ReflTransGen hierarchy.IsParent type found ↔ ∃ steps, hierarchy.climb^[steps] (some type) = some found := by
  rw [reflTransGen_iff_eq_or_transGen, transGen_iff_climb]
  constructor
  · rintro (rfl | ⟨steps, reached⟩)
    · exact ⟨0, rfl⟩
    · exact ⟨steps + 1, reached⟩
  · rintro ⟨_ | steps, reached⟩
    · exact Or.inl (Option.some.inj reached).symm
    · exact Or.inr ⟨steps, reached⟩

theorem inherits_of_mem_line {count : Nat} (member : found ∈ hierarchy.line count (some type)) :
    ReflTransGen hierarchy.IsParent type found := by
  obtain ⟨steps, _, reached⟩ := mem_line_iff.mp member
  exact reflTransGen_iff_climb.mpr ⟨steps, reached⟩

/-- Whatever is passed on the way to a type has a number of its own, and so has that type. -/
theorem known_of_climb {steps index : Nat} (known : found.index < hierarchy.types.size)
    (reached : hierarchy.climb^[steps] (some type) = some found) (early : index ≤ steps) :
    ∃ passed, hierarchy.climb^[index] (some type) = some passed ∧ passed.index < hierarchy.types.size := by
  obtain ⟨rest, rfl⟩ := Nat.exists_eq_add_of_le' early
  rw [Function.iterate_add_apply] at reached
  cases isPassed : hierarchy.climb^[index] (some type) with
  | none =>
      rw [isPassed, climb_none] at reached
      cases reached
  | some passed =>
      refine ⟨passed, rfl, ?_⟩
      rw [isPassed] at reached
      rcases ReflTransGen.cases_head (reflTransGen_iff_climb.mpr ⟨rest, reached⟩) with same | ⟨next, step, _⟩
      · exact same ▸ known
      · exact step.known

/-- A shortest way passes no type twice, so it has fewer steps than there are types. -/
theorem mem_ancestors_iff_inherits (known : found.index < hierarchy.types.size) :
    found ∈ hierarchy.ancestors type ↔ ReflTransGen hierarchy.IsParent type found := by
  constructor
  · exact inherits_of_mem_line
  · intro way
    have isReached := reflTransGen_iff_climb.mp way
    have reached := Nat.find_spec isReached
    have shortest {fewer : Nat} := Nat.find_min' isReached (m := fewer)
    generalize Nat.find isReached = steps at reached shortest
    choose passed isPassed isKnown using fun index : Fin (steps + 1) =>
      known_of_climb known reached (Nat.le_of_lt_succ index.isLt)
    have later {one two : Fin (steps + 1)} (before : one < two) : passed one ≠ passed two := by
      intro same
      have back := isPassed one
      rw [same, ← isPassed two] at back
      -- what leads from the later place to the end leads there from the earlier place too
      have shortcut : hierarchy.climb^[steps - two + one] (some type) = some found := by
        rw [Function.iterate_add_apply, back, ← Function.iterate_add_apply,
          Nat.sub_add_cancel (Nat.le_of_lt_succ two.isLt), reached]
      have := shortest shortcut
      omega
    have apart : Function.Injective
        fun index => (⟨(passed index).index, isKnown index⟩ : Fin hierarchy.types.size) := by
      intro one two same
      have same : passed one = passed two := congrArg TypeId.mk (Fin.mk.inj same)
      rcases lt_trichotomy one two with before | equal | after
      · exact absurd same (later before)
      · exact equal
      · exact absurd same.symm (later after)
    have few := Fintype.card_le_of_injective _ apart
    rw [Fintype.card_fin, Fintype.card_fin] at few
    exact mem_line_iff.mpr ⟨steps, few, reached⟩

/-- Whether a type is one of which conformance says something. -/
structure IsChecked (hierarchy : Hierarchy) (type : TypeId) : Prop where
  known : type.index < hierarchy.types.size
  checked : type.isChecked = true

theorem IsClass.checked (isClass : hierarchy.IsClass type) : hierarchy.IsChecked type :=
  ⟨isClass.known, isClass.isChecked⟩

theorem conforms_iff_inherits (ofLower : hierarchy.IsChecked lower) (ofUpper : hierarchy.IsChecked upper) :
    hierarchy.conforms lower upper = true ↔ ReflTransGen hierarchy.IsParent lower upper := by
  rw [conforms, ofLower.checked, ofUpper.checked, Bool.not_true, Bool.false_or, Bool.false_or,
    List.contains_iff_mem, mem_ancestors_iff_inherits ofUpper.known]

/-- The first of some types on a line leads to all others of them on it. -/
theorem inherits_of_find? {p : TypeId → Bool} {count : Nat}
    (isFirst : (hierarchy.line count (some type)).find? p = some found)
    (member : upper ∈ hierarchy.line count (some type)) (isSuch : p upper = true) :
    ReflTransGen hierarchy.IsParent found upper := by
  induction count generalizing type with
  | zero => cases member
  | succ count ih =>
      cases here : p type with
      | true =>
          rw [line, List.find?_cons_of_pos here] at isFirst
          exact Option.some.inj isFirst ▸ inherits_of_mem_line member
      | false =>
          rw [line, List.find?_cons_of_neg (by simp only [here, Bool.false_eq_true, not_false_eq_true])] at isFirst
          have above := (List.mem_cons.mp member).resolve_left fun same => by
            rw [same, here] at isSuch
            cases isSuch
          cases isParent : hierarchy.parent? type with
          | none =>
              rw [isParent, line_none] at above
              cases above
          | some parent =>
              rw [isParent] at isFirst above
              exact ih isFirst above

/-! ### Trees -/

theorem Joins.of_perm {types others : List TypeId} {join : TypeId} (joins : hierarchy.Joins types join)
    (perm : types.Perm others) : hierarchy.Joins others join where
  isClass := joins.isClass
  above type member := joins.above type (perm.mem_iff.mpr member)
  lowest other isAbove := joins.lowest other fun type member => isAbove type (perm.mem_iff.mp member)

/-- Whether the parents of classes are classes and lead up to `Object`, never around. -/
structure Treelike (hierarchy : Hierarchy) : Prop where
  acyclic : ∀ type, hierarchy.IsClass type → ¬ TransGen hierarchy.IsParent type type
  concrete : ∀ type parent, hierarchy.IsClass type → hierarchy.IsParent type parent → parent.isConcrete = true
  reaches : ∀ type, hierarchy.IsClass type → ReflTransGen hierarchy.IsParent type .object

/-- Building makes such a tree of any program. -/
theorem treelike_build (program : Program) :
    ((initial.collect program).1.build program (initial.collect program).2.1).1.Treelike := by
  obtain ⟨isCollected, numbered⟩ := collect_collected program
  have rooted := isCollected.build_rooted ((map_snd_typed (length_collect initial program)).trans numbered)
  constructor
  · exact fun _ _ => rooted.not_transGen_self
  · exact fun type parent _ step => (rooted.parents type parent step).concrete
  · exact fun _ => rooted.reflTransGen_object

/-- Where there is a class there is `Object`, which comes before all of a program. -/
theorem IsClass.object (isClass : hierarchy.IsClass type) : hierarchy.IsClass .object := by
  refine ⟨rfl, Nat.lt_of_le_of_lt ?_ isClass.known⟩
  by_contra few
  have concrete := isClass.concrete
  obtain ⟨_ | _ | _ | index⟩ := type
  · cases concrete
  · cases concrete
  · cases concrete
  · exact few (Nat.le_add_left 3 index)

/-- Where each class is numbered after its parent, the classes are a tree. -/
theorem treelike_of_descending (top : hierarchy.parent? .object = none)
    (descends : ∀ type, hierarchy.IsClass type → type ≠ .object → ∃ parent, hierarchy.IsParent type parent ∧
      hierarchy.IsClass parent ∧ parent.index < type.index) : hierarchy.Treelike := by
  have down {type parent : TypeId} (isClass : hierarchy.IsClass type) (step : hierarchy.IsParent type parent) :
      hierarchy.IsClass parent ∧ parent.index < type.index := by
    by_cases isObject : type = .object
    · rw [isObject, IsParent, top] at step
      cases step
    · obtain ⟨_, step', lower⟩ := descends type isClass isObject
      exact step.unique step' ▸ lower
  constructor
  · intro type isClass cycle
    have before {found : TypeId} (way : TransGen hierarchy.IsParent type found) :
        hierarchy.IsClass found ∧ found.index < type.index := by
      induction way with
      | single step => exact down isClass step
      | tail _ step ih =>
          obtain ⟨isClass', lower⟩ := down ih.1 step
          exact ⟨isClass', lower.trans ih.2⟩
    exact absurd (before cycle).2 (Nat.lt_irrefl _)
  · intro type parent isClass step
    exact (down isClass step).1.concrete
  · intro type isClass
    induction isNumber : type.index using Nat.strong_induction_on generalizing type with
    | _ number ih =>
        by_cases isObject : type = .object
        · exact isObject ▸ .refl
        · obtain ⟨parent, step, isClass', lower⟩ := descends type isClass isObject
          exact .head step (ih parent.index (isNumber ▸ lower) parent isClass' rfl)

namespace Treelike

variable (treelike : hierarchy.Treelike)
include treelike

theorem isClass_of_inherits (isClass : hierarchy.IsClass lower)
    (way : ReflTransGen hierarchy.IsParent lower upper) (known : upper.index < hierarchy.types.size) :
    hierarchy.IsClass upper := by
  induction way with
  | refl => exact isClass
  | tail _ step ih => exact ⟨treelike.concrete _ _ (ih step.known) step, known⟩

theorem antisymm (isClass : hierarchy.IsClass lower) (up : ReflTransGen hierarchy.IsParent lower upper)
    (down : ReflTransGen hierarchy.IsParent upper lower) : lower = upper := by
  rcases reflTransGen_iff_eq_or_transGen.mp up with same | up
  · exact same.symm
  · exact absurd (up.trans_left down) (treelike.acyclic lower isClass)

/-- The union of two classes is the lowest class above both. -/
theorem union_isLeast (ofLeft : hierarchy.IsClass left) (ofRight : hierarchy.IsClass right) :
    hierarchy.Joins [left, right] (hierarchy.union left right) := by
  have ofObject := ofLeft.object
  by_cases same : left = right
  · subst same
    rw [ofLeft.union_self]
    refine ⟨ofLeft, fun type member => ?_, fun other isAbove => isAbove left List.mem_cons_self⟩
    obtain rfl : type = left := by simpa using member
    exact ofLeft.conforms_self
  · rw [ofLeft.union_of_ne ofRight same]
    have common (type : TypeId) (ofType : hierarchy.IsClass type)
        (above : ReflTransGen hierarchy.IsParent left type) : (hierarchy.ancestors left).contains type = true :=
      List.contains_iff_mem.mpr ((mem_ancestors_iff_inherits ofType.known).mpr above)
    have onLine (type : TypeId) (ofType : hierarchy.IsClass type)
        (above : ReflTransGen hierarchy.IsParent right type) : type ∈ hierarchy.ancestors right :=
      (mem_ancestors_iff_inherits ofType.known).mpr above
    cases isFirst : (hierarchy.ancestors right).find? (hierarchy.ancestors left).contains with
    | none =>
        have isCommon := common .object ofObject (treelike.reaches left ofLeft)
        have isOnLine := onLine .object ofObject (treelike.reaches right ofRight)
        exact absurd isCommon (List.find?_eq_none.mp isFirst .object isOnLine)
    | some join =>
        have aboveLeft := inherits_of_mem_line (List.contains_iff_mem.mp (List.find?_some isFirst))
        have aboveRight := inherits_of_mem_line (List.mem_of_find?_eq_some isFirst)
        have least (type : TypeId) (ofType : hierarchy.IsClass type)
            (toLeft : ReflTransGen hierarchy.IsParent left type)
            (toRight : ReflTransGen hierarchy.IsParent right type) :
            ReflTransGen hierarchy.IsParent join type :=
          inherits_of_find? isFirst (onLine type ofType toRight) (common type ofType toLeft)
        have toObject := least .object ofObject (treelike.reaches left ofLeft) (treelike.reaches right ofRight)
        have known : join.index < hierarchy.types.size := by
          rcases ReflTransGen.cases_head toObject with same | ⟨_, step, _⟩
          · exact same ▸ ofObject.known
          · exact step.known
        have ofJoin := treelike.isClass_of_inherits ofLeft aboveLeft known
        constructor
        · exact ofJoin
        · intro type member
          rcases List.mem_pair.mp member with rfl | rfl
          · exact ⟨ofLeft, ofJoin, aboveLeft⟩
          · exact ⟨ofRight, ofJoin, aboveRight⟩
        · intro other isAbove
          have toLeft := isAbove left List.mem_cons_self
          have toRight := isAbove right (List.mem_cons_of_mem _ List.mem_cons_self)
          exact ⟨ofJoin, toLeft.isClass', least other toLeft.isClass' toLeft.inherits toRight.inherits⟩

theorem joins_unique {types : List TypeId} {one two : TypeId} (first : hierarchy.Joins types one)
    (second : hierarchy.Joins types two) : one = two :=
  treelike.antisymm first.isClass (first.lowest two second.above).inherits
    (second.lowest one first.above).inherits

/-- A class joined to a join joins all of them. -/
theorem joins_snoc {types : List TypeId} {join : TypeId} (joins : hierarchy.Joins types join)
    (isClass : hierarchy.IsClass type) : hierarchy.Joins (types ++ [type]) (hierarchy.union join type) := by
  have least := treelike.union_isLeast joins.isClass isClass
  have toJoin := least.above join List.mem_cons_self
  have toType := least.above type (List.mem_cons_of_mem _ List.mem_cons_self)
  constructor
  · exact least.isClass
  · intro other member
    rcases List.mem_append.mp member with member | member
    · have below := joins.above other member
      exact ⟨below.isClass, least.isClass, below.inherits.trans toJoin.inherits⟩
    · exact List.mem_singleton.mp member ▸ toType
  · intro other isAbove
    apply least.lowest
    intro one member
    rcases List.mem_pair.mp member with rfl | rfl
    · exact joins.lowest other fun type member => isAbove type (List.mem_append_left _ member)
    · exact isAbove one (List.mem_append_right _ (List.mem_singleton_self one))

/-- Going through classes with the union of those before joins all of them. -/
theorem joins_foldl {types rest : List TypeId} {join : TypeId} (joins : hierarchy.Joins types join)
    (classes : ∀ type ∈ rest, hierarchy.IsClass type) :
    hierarchy.Joins (types ++ rest) (rest.foldl hierarchy.union join) := by
  induction rest generalizing types join with
  | nil => rwa [List.append_nil]
  | cons type rest ih =>
      have ⟨isClass, classes⟩ := List.forall_mem_cons.mp classes
      have all := ih (treelike.joins_snoc joins isClass) classes
      rwa [List.append_assoc] at all

theorem foldl_union_joins {first : TypeId} {rest : List TypeId}
    (classes : ∀ type ∈ first :: rest, hierarchy.IsClass type) :
    hierarchy.Joins (first :: rest) (rest.foldl hierarchy.union first) :=
  have ⟨isClass, classes⟩ := List.forall_mem_cons.mp classes
  treelike.joins_foldl isClass.joins_self classes

/-- Many classes have the same union in every order. -/
theorem foldl_union_perm {first first' : TypeId} {rest rest' : List TypeId}
    (classes : ∀ type ∈ first :: rest, hierarchy.IsClass type) (perm : (first :: rest).Perm (first' :: rest')) :
    rest.foldl hierarchy.union first = rest'.foldl hierarchy.union first' := by
  have joins := (treelike.foldl_union_joins classes).of_perm perm
  exact treelike.joins_unique joins
    (treelike.foldl_union_joins fun type member => classes type (perm.mem_iff.mpr member))

/-- The union of a class and one above it is the one above. -/
theorem union_of_conforms (conforms : hierarchy.Conforms lower upper) : hierarchy.union lower upper = upper := by
  have isLeast : hierarchy.Joins [lower, upper] upper := by
    refine ⟨conforms.isClass', fun type member => ?_,
      fun _ isAbove => isAbove upper (List.mem_cons_of_mem _ List.mem_cons_self)⟩
    rcases List.mem_pair.mp member with rfl | rfl
    · exact conforms
    · exact conforms.isClass'.conforms_self
  exact treelike.joins_unique (treelike.union_isLeast conforms.isClass conforms.isClass') isLeast

theorem union_comm (ofLeft : hierarchy.IsClass left) (ofRight : hierarchy.IsClass right) :
    hierarchy.union left right = hierarchy.union right left := by
  have swapped : [right].foldl hierarchy.union left = [left].foldl hierarchy.union right := by
    apply treelike.foldl_union_perm
    · simp [ofLeft, ofRight]
    · exact List.Perm.swap right left []
  exact swapped

theorem union_assoc {middle : TypeId} (ofLeft : hierarchy.IsClass left) (ofMiddle : hierarchy.IsClass middle)
    (ofRight : hierarchy.IsClass right) : hierarchy.union (hierarchy.union left middle) right =
      hierarchy.union left (hierarchy.union middle right) := by
  have ofUnion := (treelike.union_isLeast ofMiddle ofRight).isClass
  -- the three, gone through from the middle one
  have turned : [middle, right].foldl hierarchy.union left = [right, left].foldl hierarchy.union middle := by
    apply treelike.foldl_union_perm
    · simp [ofLeft, ofMiddle, ofRight]
    · exact (List.perm_append_singleton left [middle, right]).symm
  exact turned.trans (treelike.union_comm ofUnion ofLeft)

end Treelike

/-- Conformance is what parents lead to, in a hierarchy of any shape. Where its classes are a tree it is a
partial order on them with `Object` on top, and union is the least upper bound: idempotent, commutative and
associative, and the same over many classes in whichever order they are gone through. -/
theorem conforms_order_union_join (hierarchy : Hierarchy) :
    (∀ type found : TypeId, found.index < hierarchy.types.size →
      (found ∈ hierarchy.ancestors type ↔ ReflTransGen hierarchy.IsParent type found)) ∧
    (∀ lower upper, hierarchy.IsChecked lower → hierarchy.IsChecked upper →
      (hierarchy.conforms lower upper = true ↔ ReflTransGen hierarchy.IsParent lower upper)) ∧
    (∀ type, hierarchy.IsChecked type → hierarchy.conforms type type = true) ∧
    (∀ lower middle upper, hierarchy.IsChecked lower → hierarchy.IsChecked middle →
      hierarchy.IsChecked upper → hierarchy.conforms lower middle = true →
      hierarchy.conforms middle upper = true → hierarchy.conforms lower upper = true) ∧
    (hierarchy.Treelike →
      (∀ lower upper, hierarchy.IsClass lower → hierarchy.IsClass upper →
        hierarchy.conforms lower upper = true → hierarchy.conforms upper lower = true → lower = upper) ∧
      (∀ type, hierarchy.IsClass type →
        hierarchy.IsClass .object ∧ hierarchy.conforms type .object = true) ∧
      (∀ left right, hierarchy.IsClass left → hierarchy.IsClass right →
        let join := hierarchy.union left right
        hierarchy.IsClass join ∧ hierarchy.conforms left join = true ∧ hierarchy.conforms right join = true ∧
          ∀ upper, hierarchy.IsClass upper → hierarchy.conforms left upper = true →
            hierarchy.conforms right upper = true → hierarchy.conforms join upper = true) ∧
      (∀ type, hierarchy.IsClass type → hierarchy.union type type = type) ∧
      (∀ left right, hierarchy.IsClass left → hierarchy.IsClass right →
        hierarchy.union left right = hierarchy.union right left) ∧
      (∀ left middle right, hierarchy.IsClass left → hierarchy.IsClass middle → hierarchy.IsClass right →
        hierarchy.union (hierarchy.union left middle) right =
          hierarchy.union left (hierarchy.union middle right)) ∧
      ∀ first rest first' rest', (∀ type ∈ first :: rest, hierarchy.IsClass type) →
        (first :: rest).Perm (first' :: rest') →
        rest.foldl hierarchy.union first = rest'.foldl hierarchy.union first') := by
  refine ⟨fun _ _ => mem_ancestors_iff_inherits, fun _ _ => conforms_iff_inherits,
    fun _ isChecked => (conforms_iff_inherits isChecked isChecked).mpr .refl,
    fun lower middle upper ofLower ofMiddle ofUpper up up' => ?_, fun treelike => ?_⟩
  · have up := (conforms_iff_inherits ofLower ofMiddle).mp up
    have up' := (conforms_iff_inherits ofMiddle ofUpper).mp up'
    exact (conforms_iff_inherits ofLower ofUpper).mpr (up.trans up')
  have conforms_iff {lower upper : TypeId} (ofLower : hierarchy.IsClass lower)
      (ofUpper : hierarchy.IsClass upper) := conforms_iff_inherits ofLower.checked ofUpper.checked
  refine ⟨fun lower upper ofLower ofUpper up down => ?_, fun type isClass => ?_,
    fun left right ofLeft ofRight => ?_, fun _ => IsClass.union_self, fun _ _ => treelike.union_comm,
    fun _ _ _ => treelike.union_assoc, fun _ _ _ _ => treelike.foldl_union_perm⟩
  · exact treelike.antisymm ofLower ((conforms_iff ofLower ofUpper).mp up)
      ((conforms_iff ofUpper ofLower).mp down)
  · exact ⟨isClass.object, (conforms_iff isClass isClass.object).mpr (treelike.reaches type isClass)⟩
  · have least := treelike.union_isLeast ofLeft ofRight
    have aboveLeft := least.above left List.mem_cons_self
    have aboveRight := least.above right (List.mem_cons_of_mem _ List.mem_cons_self)
    refine ⟨least.isClass, (conforms_iff ofLeft least.isClass).mpr aboveLeft.inherits,
      (conforms_iff ofRight least.isClass).mpr aboveRight.inherits, fun upper ofUpper toLeft toRight => ?_⟩
    have isAbove : ∀ type ∈ [left, right], hierarchy.Conforms type upper := by
      intro type member
      rcases List.mem_pair.mp member with rfl | rfl
      · exact ⟨ofLeft, ofUpper, (conforms_iff ofLeft ofUpper).mp toLeft⟩
      · exact ⟨ofRight, ofUpper, (conforms_iff ofRight ofUpper).mp toRight⟩
    exact (conforms_iff least.isClass ofUpper).mpr (least.lowest upper isAbove).inherits

/-- A class that two others inherit from. The sentinel for the class around has a parent too. -/
def forked : Hierarchy :=
  let named : Hierarchy := ⟨initial.types ++ #[.named "A", .named "B", .named "C"]⟩
  (((named.setParent ⟨8⟩ .object).setParent ⟨9⟩ ⟨8⟩).setParent ⟨10⟩ ⟨8⟩).setParent .selfType ⟨10⟩

theorem conforms_order_union_join_forked :
    forked.Treelike ∧
    (forked.conforms .selfType ⟨8⟩ = true ↔ ReflTransGen forked.IsParent .selfType ⟨8⟩) ∧
    forked.conforms .selfType .selfType = true ∧
    (forked.conforms .selfType ⟨8⟩ = true → forked.conforms ⟨8⟩ .object = true →
      forked.conforms .selfType .object = true) ∧
    (forked.conforms ⟨9⟩ ⟨8⟩ = true → forked.conforms ⟨8⟩ ⟨9⟩ = true → (⟨9⟩ : TypeId) = ⟨8⟩) ∧
    forked.union ⟨9⟩ ⟨10⟩ = ⟨8⟩ ∧ forked.conforms ⟨9⟩ ⟨8⟩ = true ∧
    forked.union ⟨9⟩ ⟨10⟩ = forked.union ⟨10⟩ ⟨9⟩ ∧
    [⟨10⟩, .int].foldl forked.union ⟨9⟩ = [⟨9⟩, ⟨10⟩].foldl forked.union .int := by
  have isClass (index : Fin 11) (concrete : (TypeId.mk index).isConcrete = true) : forked.IsClass ⟨index⟩ :=
    ⟨concrete, index.isLt⟩
  have treelike : forked.Treelike := by
    apply treelike_of_descending rfl
    intro ⟨index⟩ ⟨concrete, known⟩ notObject
    have parents : ∀ index : Fin 11, (TypeId.mk index).isConcrete = true → TypeId.mk index ≠ .object →
        ∃ parent : Fin 11, forked.parent? ⟨index⟩ = some ⟨parent⟩ ∧ (TypeId.mk parent).isConcrete = true ∧
          parent.val < index.val := by
      decide +kernel
    obtain ⟨parent, step, concrete', lower⟩ := parents ⟨index, known⟩ concrete notObject
    exact ⟨⟨parent⟩, step, isClass parent concrete', lower⟩
  have ofA := isClass 8 rfl
  have ofB := isClass 9 rfl
  have ofC := isClass 10 rfl
  have ofSelf : forked.IsChecked .selfType := ⟨by decide +kernel, rfl⟩
  have ofObject := (isClass 3 rfl).checked
  have turned : ([⟨9⟩, ⟨10⟩] ++ [.int] : List TypeId).Perm (.int :: [⟨9⟩, ⟨10⟩]) :=
    List.perm_append_singleton _ _
  obtain ⟨_, iff, self, trans, tree⟩ := conforms_order_union_join forked
  obtain ⟨antisymm, _, least, _, comm, _, anyOrder⟩ := tree treelike
  refine ⟨treelike, iff _ _ ofSelf ofA.checked, self _ ofSelf, trans _ _ _ ofSelf ofA.checked ofObject,
    antisymm _ _ ofB ofA, by decide +kernel, (least _ _ ofB ofC).2.1, comm _ _ ofB ofC,
    anyOrder _ _ _ _ ?_ turned⟩
  simp only [List.forall_mem_cons]
  exact ⟨ofB, ofC, isClass 5 rfl, nofun⟩

/-- Two classes that are each other's parents conform to each other. -/
example :
    let named : Hierarchy := ⟨initial.types ++ #[.named "A", .named "B"]⟩
    let cyclic := (named.setParent ⟨8⟩ ⟨9⟩).setParent ⟨9⟩ ⟨8⟩
    cyclic.conforms ⟨8⟩ ⟨9⟩ = true ∧ cyclic.conforms ⟨9⟩ ⟨8⟩ = true ∧ cyclic.conforms ⟨8⟩ .object = false := by
  decide +kernel

end Hierarchy

end CoolLang
