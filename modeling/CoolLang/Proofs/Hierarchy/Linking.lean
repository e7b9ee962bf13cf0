import CoolLang.Proofs.Hierarchy.Bare
import CoolLang.Proofs.Hierarchy.Build
import Mathlib.Data.List.Find
import Mathlib.Data.List.Nodup
import Mathlib.Data.List.Perm.Subperm

/-!
What linking the classes leaves. Collecting gives each class the next number and a name that no type
has; linking gives each a parent, and breaking the cycles makes every class lead up to `Object`
(`Hierarchy.build_rooted`).
-/

namespace CoolLang

namespace Hierarchy

variable {hierarchy next : Hierarchy} {type parent : TypeId}

/-! ### Updates -/

theorem mem_ids : type ∈ hierarchy.ids ↔ type.index < hierarchy.types.size := by
  unfold ids
  rw [List.mem_map]
  constructor
  · rintro ⟨index, member, rfl⟩
    exact List.mem_range.mp member
  · exact fun known => ⟨type.index, List.mem_range.mpr known, rfl⟩

theorem size_update (hierarchy : Hierarchy) (owner : TypeId) (change : TypeInfo → TypeInfo) :
    (hierarchy.update owner change).types.size = hierarchy.types.size :=
  Array.size_modify ..

theorem info_update_self {change : TypeInfo → TypeInfo} (known : type.index < hierarchy.types.size) :
    (hierarchy.update type change).info type = change (hierarchy.info type) := by
  rw [info, update, Array.getElem?_modify, if_pos rfl, info, Array.getElem?_eq_getElem known]
  rfl

theorem info_update_of_ne {owner : TypeId} {change : TypeInfo → TypeInfo} (other : type ≠ owner) :
    (hierarchy.update owner change).info type = hierarchy.info type := by
  rcases hierarchy.info_update owner change type with ⟨_, same⟩ | ⟨isOwner, _⟩
  · exact same
  · exact absurd isOwner other

/-- A change reaches the type that it is for, if there is one. -/
theorem info_update_eq (hierarchy : Hierarchy) (owner : TypeId) (change : TypeInfo → TypeInfo)
    (type : TypeId) :
    (hierarchy.update owner change).info type =
      if type = owner ∧ type.index < hierarchy.types.size then change (hierarchy.info type)
      else hierarchy.info type := by
  split
  · rename_i reached
    obtain ⟨rfl, known⟩ := reached
    exact info_update_self known
  · rename_i missed
    by_cases same : type = owner
    · have unknown : hierarchy.types.size ≤ type.index := Nat.le_of_not_lt fun known => missed ⟨same, known⟩
      rw [info, info, Array.getElem?_eq_none unknown, Array.getElem?_eq_none]
      rwa [update, Array.size_modify]
    · exact info_update_of_ne same

theorem update_eq_self {owner : TypeId} {change : TypeInfo → TypeInfo}
    (same : change (hierarchy.info owner) = hierarchy.info owner) :
    hierarchy.update owner change = hierarchy := by
  refine congrArg mk (Array.ext_getElem? fun index => ?_)
  rw [Array.getElem?_modify]
  split
  · rename_i isOwner
    cases known : hierarchy.types[index]? with
    | none => rfl
    | some info =>
        rw [Hierarchy.info, isOwner, known] at same
        exact congrArg some same
  · rfl

/-- A change that leaves a type its name leaves all types where they are found. -/
theorem find?_update {owner : TypeId} {change : TypeInfo → TypeInfo}
    (keeps : (change (hierarchy.info owner)).name = hierarchy.name owner) :
    (hierarchy.update owner change).find? = hierarchy.find? := by
  funext name
  have same (type : TypeId) : (hierarchy.update owner change).name type = hierarchy.name type := by
    rw [Hierarchy.name, info_update_eq]
    split
    · rename_i reached
      rw [reached.1]
      exact keeps
    · rfl
  simp only [find?, ids, size_update, same]

theorem parent?_setParent_self (known : type.index < hierarchy.types.size) :
    (hierarchy.setParent type parent).parent? type = some parent := by
  rw [parent?, setParent, info_update_self known]

theorem parent?_setParent_of_ne {other : TypeId} (apart : other ≠ type) :
    (hierarchy.setParent type parent).parent? other = hierarchy.parent? other := by
  rw [parent?, setParent, info_update_of_ne apart, parent?]

/-! ### Names -/

theorem find?_known {name : String} (found : hierarchy.find? name = some type) :
    type.index < hierarchy.types.size ∧ type ≠ .error ∧ hierarchy.name type = name := by
  have holds := List.find?_some found
  rw [Bool.and_eq_true, bne_iff_ne, beq_iff_eq] at holds
  exact ⟨mem_ids.mp (List.mem_of_find?_eq_some found), holds⟩

/-- The types after some classes have been collected: the eight of the beginning and one for each of
those classes, with names that tell them apart. -/
structure Collected (hierarchy : Hierarchy) : Prop where
  builtins : 8 ≤ hierarchy.types.size
  first : ∀ type : TypeId, type.index < 8 → hierarchy.info type = initial.info type
  named : ∀ type : TypeId, 8 ≤ type.index → type.index < hierarchy.types.size →
    ∃ name, hierarchy.info type = .named name
  distinct : ∀ type : TypeId, type.index < hierarchy.types.size → type ≠ .error →
    hierarchy.find? (hierarchy.name type) = some type

theorem initial_collected : Collected initial where
  builtins := by decide
  first _ _ := rfl
  named type old known := absurd known (Nat.not_lt.mpr old)
  distinct := by
    have all : ∀ type ∈ initial.ids, type ≠ .error → initial.find? (initial.name type) = some type := by
      decide
    exact fun type known => all type (mem_ids.mpr known)

/-- There is no more than a name to any type after the first ones. -/
theorem Collected.exists_named (collected : hierarchy.Collected) (large : 8 ≤ type.index) :
    ∃ name, hierarchy.info type = .named name := by
  by_cases known : type.index < hierarchy.types.size
  · exact collected.named type large known
  · refine ⟨"", ?_⟩
    rw [info, Array.getElem?_eq_none (Nat.le_of_not_lt known)]
    rfl

theorem Collected.featureless (collected : hierarchy.Collected) (type : TypeId) :
    (hierarchy.info type).attributes = [] ∧ (hierarchy.info type).methods = [] := by
  by_cases small : type.index < 8
  · have none : ∀ type ∈ initial.ids, (initial.info type).attributes = [] ∧ (initial.info type).methods = [] := by
      decide
    exact collected.first type small ▸ none type (mem_ids.mpr small)
  · obtain ⟨name, isNamed⟩ := collected.exists_named (Nat.le_of_not_lt small)
    exact isNamed ▸ ⟨rfl, rfl⟩

theorem ids_push (info : TypeInfo) :
    ids ⟨hierarchy.types.push info⟩ = hierarchy.ids ++ [⟨hierarchy.types.size⟩] := by
  rw [ids, Array.size_push, List.range_succ, List.map_append, ids]
  rfl

theorem info_push (info : TypeInfo) (known : type.index < hierarchy.types.size) :
    Hierarchy.info ⟨hierarchy.types.push info⟩ type = hierarchy.info type := by
  rw [Hierarchy.info, Array.getElem?_push, if_neg (Nat.ne_of_lt known), Hierarchy.info]

theorem info_push_new (info : TypeInfo) :
    Hierarchy.info ⟨hierarchy.types.push info⟩ ⟨hierarchy.types.size⟩ = info := by
  rw [Hierarchy.info, Array.getElem?_push_size]
  rfl

/-- A type that is added is found by its name, and all others as before. -/
theorem find?_push (info : TypeInfo) (enough : 8 ≤ hierarchy.types.size) (name : String) :
    find? ⟨hierarchy.types.push info⟩ name =
      (hierarchy.find? name).or
        (if info.name = name then some ⟨hierarchy.types.size⟩ else none) := by
  have old : hierarchy.ids.find? (fun type => type != TypeId.error &&
      Hierarchy.name ⟨hierarchy.types.push info⟩ type == name) = hierarchy.find? name := by
    refine List.find?_congr fun type member => ?_
    rw [Hierarchy.name, info_push info (mem_ids.mp member), Hierarchy.name]
  have notError : (TypeId.mk hierarchy.types.size != TypeId.error) = true := by
    refine bne_iff_ne.mpr fun same => ?_
    have two : hierarchy.types.size = 2 := congrArg TypeId.index same
    omega
  rw [find?, ids_push, List.find?_append, old, List.find?_singleton, Hierarchy.name, info_push_new,
    notError, Bool.true_and]
  simp only [beq_iff_eq]

theorem create_collected {name : String} (collected : hierarchy.Collected)
    (created : hierarchy.create name = .ok (type, next)) :
    next.Collected ∧ next.types.size = hierarchy.types.size + 1 ∧ type = ⟨hierarchy.types.size⟩ := by
  have enough := collected.builtins
  unfold create at created
  cases absent : hierarchy.find? name with
  | some _ =>
      rw [absent] at created
      cases created
  | none =>
      rw [absent] at created
      cases created
      have size : (Hierarchy.mk (hierarchy.types.push (.named name))).types.size =
          hierarchy.types.size + 1 := Array.size_push ..
      refine ⟨⟨by omega, fun type old => ?_, fun type old known => ?_, fun type known notError => ?_⟩,
        size, rfl⟩
      · rw [info_push _ (by omega), collected.first type old]
      · by_cases isNew : type.index = hierarchy.types.size
        · obtain ⟨index⟩ := type
          obtain rfl : index = _ := isNew
          exact ⟨name, info_push_new _⟩
        · rw [info_push _ (by omega)]
          exact collected.named type old (by omega)
      · rw [find?_push _ enough]
        by_cases isNew : type.index = hierarchy.types.size
        · obtain ⟨index⟩ := type
          obtain rfl : index = _ := isNew
          rw [Hierarchy.name, info_push_new, show (TypeInfo.named name).name = name from rfl, absent,
            if_pos rfl, Option.none_or]
        · have isOld : type.index < hierarchy.types.size := by omega
          rw [Hierarchy.name, info_push _ isOld, show (hierarchy.info type).name = hierarchy.name type
            from rfl, collected.distinct type isOld notError, Option.some_or]

/-- The classes that get a type are numbered in order. -/
theorem collectAll_collected (decls : List ClassDecl) (collected : hierarchy.Collected) :
    (hierarchy.collectAll decls).1.Collected ∧
      hierarchy.types.size ≤ (hierarchy.collectAll decls).1.types.size ∧
      (hierarchy.collectAll decls).2.1.filterMap id = (List.range' hierarchy.types.size
        ((hierarchy.collectAll decls).1.types.size - hierarchy.types.size)).map TypeId.mk := by
  induction decls generalizing hierarchy with
  | nil =>
      refine ⟨collected, Nat.le_refl _, ?_⟩
      rw [collectAll, Nat.sub_self]
      rfl
  | cons decl decls ih =>
      rw [collectAll]
      split
      · rename_i type next created
        obtain ⟨collected, size, rfl⟩ := create_collected collected created
        obtain ⟨collected, more, numbered⟩ := ih collected
        rw [size] at more numbered
        refine ⟨collected, by dsimp only; omega, ?_⟩
        dsimp only
        change TypeId.mk hierarchy.types.size :: List.filterMap id _ = _
        rw [numbered, ← List.map_cons, ← List.range'_succ]
        congr 2
        omega
      · exact ih collected

theorem collect_collected (program : Program) :
    (initial.collect program).1.Collected ∧
      (initial.collect program).2.1.filterMap id =
        (List.range' 8 ((initial.collect program).1.types.size - 8)).map TypeId.mk := by
  obtain ⟨collected, _, numbered⟩ := collectAll_collected program.classes initial_collected
  exact ⟨collected, numbered⟩

theorem length_collect (hierarchy : Hierarchy) (program : Program) :
    (hierarchy.collect program).2.1.length = program.classes.length := by
  unfold collect
  induction program.classes generalizing hierarchy with
  | nil => rfl
  | cons decl decls ih =>
      rw [collectAll]
      split
      · exact congrArg (· + 1) (ih _)
      · exact congrArg (· + 1) (ih _)

/-! ### Parents -/

/-- Every class but `Object` and those that are still to be linked has a class as its parent. -/
structure Linked (pending : List TypeId) (hierarchy : Hierarchy) : Prop where
  builtins : 8 ≤ hierarchy.types.size
  top : hierarchy.parent? .object = none
  parents : ∀ child parent, hierarchy.parent? child = some parent → hierarchy.IsClass parent
  complete : ∀ type, hierarchy.IsClass type → type ≠ .object → type ∉ pending →
    ∃ parent, hierarchy.parent? type = some parent

theorem isClass_setParent {other : TypeId} :
    (hierarchy.setParent type parent).IsClass other ↔ hierarchy.IsClass other := by
  have size : (hierarchy.setParent type parent).types.size = hierarchy.types.size := size_update ..
  exact ⟨fun isClass => ⟨isClass.concrete, size ▸ isClass.known⟩,
    fun isClass => ⟨isClass.concrete, size.symm ▸ isClass.known⟩⟩

theorem setParent_linked {pending : List TypeId} (linked : Linked (type :: pending) hierarchy)
    (known : type.index < hierarchy.types.size) (below : type ≠ .object)
    (isClass : hierarchy.IsClass parent) : Linked pending (hierarchy.setParent type parent) := by
  refine ⟨?_, ?_, fun child found isParent => ?_, fun child childIsClass other absent => ?_⟩
  · rw [setParent, size_update]
    exact linked.builtins
  · rw [parent?_setParent_of_ne below.symm, linked.top]
  · rw [isClass_setParent]
    by_cases same : child = type
    · rw [same, parent?_setParent_self known] at isParent
      exact Option.some.inj isParent ▸ isClass
    · rw [parent?_setParent_of_ne same] at isParent
      exact linked.parents child found isParent
  · by_cases same : child = type
    · exact ⟨parent, by rw [same, parent?_setParent_self known]⟩
    · rw [parent?_setParent_of_ne same]
      exact linked.complete child (isClass_setParent.mp childIsClass) other
        (List.not_mem_cons_of_ne_of_not_mem same absent)

theorem declaredParent_isClass (enough : 8 ≤ hierarchy.types.size) (decl : ClassDecl) :
    hierarchy.IsClass (hierarchy.declaredParent decl).1 := by
  refine ⟨hierarchy.declaredParent_isConcrete decl, ?_⟩
  have object : TypeId.object.index < hierarchy.types.size :=
    Nat.lt_of_lt_of_le (by decide) enough
  unfold declaredParent
  split
  · exact object
  · split
    · exact object
    · rename_i found
      split
      · exact object
      · exact (find?_known (get_eq_ok.mp found)).1

theorem linkParents_linked (typed : List (ClassDecl × TypeId))
    (areClasses : ∀ class' ∈ typed, class'.2.index < hierarchy.types.size ∧ class'.2 ≠ .object)
    (linked : Linked (typed.map Prod.snd) hierarchy) :
    Linked [] (reportEach linkParent hierarchy typed).1 := by
  induction typed generalizing hierarchy with
  | nil => exact linked
  | cons class' typed ih =>
      obtain ⟨⟨known, below⟩, later⟩ := List.forall_mem_cons.mp areClasses
      refine ih (fun other member => ?_) (setParent_linked linked known below
        (declaredParent_isClass linked.builtins class'.1))
      rw [setParent, size_update]
      exact later other member

/-! ### Cycles -/

theorem ancestors_drop_one (hierarchy : Hierarchy) (type : TypeId) :
    (hierarchy.ancestors type).drop 1 =
      hierarchy.line (hierarchy.types.size - 1) (hierarchy.parent? type) := by
  unfold ancestors
  cases hierarchy.types.size with
  | zero => rfl
  | succ count => rfl

/-- A line that a class was taken off goes on as before, or ends at `Object`. -/
theorem mem_line_setParent_object (top : (hierarchy.setParent type .object).parent? .object = none)
    (known : type.index < hierarchy.types.size) {count : Nat} {start : Option TypeId} {found : TypeId}
    (member : found ∈ (hierarchy.setParent type .object).line count start) :
    found ∈ hierarchy.line count start ∨ found = .object := by
  induction count generalizing start with
  | zero => cases member
  | succ count ih =>
      cases start with
      | none => cases member
      | some first =>
          rw [line] at member ⊢
          rcases List.mem_cons.mp member with rfl | above
          · exact Or.inl List.mem_cons_self
          · by_cases same : first = type
            · rw [same, parent?_setParent_self known] at above
              cases count with
              | zero => cases above
              | succ count =>
                  rw [line, top, line_none, List.mem_singleton] at above
                  exact Or.inr above
            · rw [parent?_setParent_of_ne same] at above
              exact (ih above).imp_left (List.mem_cons_of_mem first)

/-- No class but those that are still to be looked at is on a cycle of parents. -/
def AcyclicBut (pending : List TypeId) (hierarchy : Hierarchy) : Prop :=
  ∀ type, hierarchy.IsClass type → type ∉ pending → hierarchy.isOnCycle type = false

theorem isOnCycle_iff : hierarchy.isOnCycle type = true ↔
    type ∈ hierarchy.line (hierarchy.types.size - 1) (hierarchy.parent? type) := by
  rw [isOnCycle, ancestors_drop_one, List.contains_iff_mem]

theorem setParent_object_acyclic {pending : List TypeId} (linked : Linked [] hierarchy)
    (known : type.index < hierarchy.types.size) (below : type ≠ .object)
    (acyclic : AcyclicBut (type :: pending) hierarchy) :
    AcyclicBut pending (hierarchy.setParent type .object) := by
  have top : (hierarchy.setParent type .object).parent? .object = none := by
    rw [parent?_setParent_of_ne below.symm, linked.top]
  intro other isClass absent
  rw [← Bool.not_eq_true, isOnCycle_iff, show (hierarchy.setParent type .object).types.size =
    hierarchy.types.size from size_update ..]
  intro member
  by_cases same : other = type
  · rw [same, parent?_setParent_self known] at member
    cases size : hierarchy.types.size - 1 with
    | zero =>
        rw [size] at member
        cases member
    | succ count =>
        rw [size, line, top, line_none, List.mem_singleton] at member
        exact below member
  · rw [parent?_setParent_of_ne same] at member
    rcases mem_line_setParent_object top known member with member | rfl
    · have before := acyclic other (isClass_setParent.mp isClass)
        (List.not_mem_cons_of_ne_of_not_mem same absent)
      rw [isOnCycle_iff.mpr member] at before
      cases before
    · rw [linked.top, line_none] at member
      cases member

theorem breakCycle_linked {class' : ClassDecl × TypeId} {pending : List TypeId}
    (linked : Linked [] hierarchy) (known : class'.2.index < hierarchy.types.size)
    (below : class'.2 ≠ .object) (acyclic : AcyclicBut (class'.2 :: pending) hierarchy) :
    Linked [] (hierarchy.breakCycle class').1 ∧ AcyclicBut pending (hierarchy.breakCycle class').1 ∧
      (hierarchy.breakCycle class').1.types.size = hierarchy.types.size := by
  unfold breakCycle
  dsimp only
  split
  · have object := declaredParent_isClass linked.builtins ⟨default, none, [], default⟩
    have weaker : Linked [class'.2] hierarchy := ⟨linked.builtins, linked.top, linked.parents,
      fun type isClass other _ => linked.complete type isClass other List.not_mem_nil⟩
    exact ⟨setParent_linked weaker known below object,
      setParent_object_acyclic linked known below acyclic, size_update ..⟩
  · rename_i offCycle
    refine ⟨linked, fun type isClass absent => ?_, rfl⟩
    by_cases same : type = class'.2
    · rw [same, ← Bool.not_eq_true]
      exact offCycle
    · exact acyclic type isClass (List.not_mem_cons_of_ne_of_not_mem same absent)

theorem breakCycles_linked (typed : List (ClassDecl × TypeId))
    (areClasses : ∀ class' ∈ typed, class'.2.index < hierarchy.types.size ∧ class'.2 ≠ .object)
    (linked : Linked [] hierarchy) (acyclic : AcyclicBut (typed.map Prod.snd) hierarchy) :
    Linked [] (reportEach breakCycle hierarchy typed).1 ∧
      AcyclicBut [] (reportEach breakCycle hierarchy typed).1 := by
  induction typed generalizing hierarchy with
  | nil => exact ⟨linked, acyclic⟩
  | cons class' typed ih =>
      obtain ⟨⟨known, below⟩, later⟩ := List.forall_mem_cons.mp areClasses
      obtain ⟨linked, acyclic, size⟩ := breakCycle_linked linked known below acyclic
      exact ih (fun other member => size ▸ later other member) linked acyclic

/-! ### Roots -/

/-- A line that does not come to `Object` has all the types that it may have. -/
theorem length_line (linked : Linked [] hierarchy) {count : Nat} (isClass : hierarchy.IsClass type)
    (absent : TypeId.object ∉ hierarchy.line count (some type)) :
    (hierarchy.line count (some type)).length = count := by
  induction count generalizing type with
  | zero => rfl
  | succ count ih =>
      rw [line] at absent ⊢
      obtain ⟨below, absent⟩ := not_or.mp (mt List.mem_cons.mpr absent)
      obtain ⟨parent, isParent⟩ := linked.complete type isClass (Ne.symm below) List.not_mem_nil
      rw [isParent] at absent ⊢
      rw [List.length_cons, ih (linked.parents type parent isParent) absent]

theorem line_subset {count : Nat} (more : Nat) {start : Option TypeId} :
    hierarchy.line count start ⊆ hierarchy.line (count + more) start := by
  induction count generalizing start with
  | zero => exact List.nil_subset _
  | succ count ih =>
      cases start with
      | none => exact List.nil_subset _
      | some type =>
          rw [Nat.add_right_comm, line, line]
          exact List.cons_subset_cons type ih

theorem line_nodup (linked : Linked [] hierarchy) (acyclic : AcyclicBut [] hierarchy) {count : Nat}
    (short : count ≤ hierarchy.types.size) (isClass : hierarchy.IsClass type) :
    (hierarchy.line count (some type)).Nodup := by
  induction count generalizing type with
  | zero => exact List.nodup_nil
  | succ count ih =>
      rw [line, List.nodup_cons]
      constructor
      · intro member
        have longer := line_subset (hierarchy.types.size - 1 - count) member
        rw [show count + (hierarchy.types.size - 1 - count) = hierarchy.types.size - 1 by omega] at longer
        have onCycle := acyclic type isClass List.not_mem_nil
        rw [isOnCycle_iff.mpr longer] at onCycle
        cases onCycle
      · cases isParent : hierarchy.parent? type with
        | none =>
            rw [line_none]
            exact List.nodup_nil
        | some parent => exact ih (by omega) (linked.parents type parent isParent)

/-- A line of distinct classes is shorter than the list of all types, so it has come to `Object`. -/
theorem rooted_of_linked (linked : Linked [] hierarchy) (acyclic : AcyclicBut [] hierarchy) :
    hierarchy.Rooted := by
  refine ⟨linked.builtins, linked.top, linked.parents, fun type isClass => ?_⟩
  by_contra absent
  have whole : (hierarchy.ancestors type).length = hierarchy.types.size := length_line linked isClass absent
  have distinct : (hierarchy.ancestors type).Nodup :=
    line_nodup linked acyclic (Nat.le_refl _) isClass
  have counted : ((hierarchy.ancestors type).map TypeId.index).Nodup :=
    List.Nodup.map (fun _ _ same => congrArg TypeId.mk same) distinct
  have inside : (hierarchy.ancestors type).map TypeId.index ⊆
      List.range' 1 (hierarchy.types.size - 1) := by
    intro index member
    obtain ⟨found, above, rfl⟩ := List.mem_map.mp member
    have isClass := ancestors_of linked.parents isClass found above
    have notFirst : found.index ≠ 0 := fun isFirst => by
      obtain rfl : found = .selfType := congrArg TypeId.mk isFirst
      cases isClass.concrete
    have known := isClass.known
    rw [List.mem_range'_1]
    omega
  have bound := (counted.subperm inside).length_le
  rw [List.length_map, List.length_range', whole] at bound
  have enough := linked.builtins
  omega

/-! ### Building -/

theorem putMethod_bare (info : TypeInfo) (method : Method) : (info.putMethod method).bare = info.bare := by
  unfold TypeInfo.putMethod
  split <;> rfl

theorem defineBuiltins_alike (hierarchy : Hierarchy) : hierarchy.defineBuiltins.Alike hierarchy := by
  unfold defineBuiltins
  generalize builtinMethods = builtins
  induction builtins generalizing hierarchy with
  | nil => exact .refl hierarchy
  | cons builtin builtins ih =>
      exact (ih _).trans (.update hierarchy builtin.1 fun info => putMethod_bare info builtin.2)

theorem defineFeature_alike (type : TypeId) (hierarchy : Hierarchy) (feature : Feature) :
    (defineFeature type hierarchy feature).1.Alike hierarchy := by
  rcases feature with decl | decl
  · unfold defineFeature defineAttribute
    dsimp only
    split
    · exact .refl hierarchy
    · exact .update hierarchy type fun _ => rfl
  · unfold defineFeature defineMethod
    dsimp only
    split
    · exact .refl hierarchy
    · exact .update hierarchy type fun info => putMethod_bare info _

theorem defineAllFeatures_alike (hierarchy : Hierarchy) (typed : List (ClassDecl × TypeId)) :
    (reportEach defineFeatures hierarchy typed).1.Alike hierarchy :=
  reportEach_keeps (p := fun state : Hierarchy => state.Alike hierarchy)
    (fun _ class' alike => reportEach_keeps (p := fun state : Hierarchy => state.Alike hierarchy)
      (fun state feature alike => (defineFeature_alike class'.2 state feature).trans alike) alike
      class'.1.features)
    (.refl hierarchy) typed

theorem map_snd_typed {decls : List ClassDecl} {types : ClassTypes} (fits : types.length = decls.length) :
    (Program.typed ⟨decls⟩ types).map Prod.snd = types.filterMap id := by
  induction decls generalizing types with
  | nil =>
      obtain rfl := List.length_eq_zero_iff.mp fits
      rfl
  | cons decl decls ih =>
      obtain _ | ⟨type, types⟩ := types
      · cases fits
      · have later := ih (Nat.succ.inj fits)
        cases type with
        | none => exact later
        | some type => exact congrArg (type :: ·) later

/-- The classes of a program are numbered in order, from the first number that no built-in type has. -/
theorem collect_numbered (program : Program) :
    (program.typed (initial.collect program).2.1).map Prod.snd =
      (List.range' 8 ((initial.collect program).1.types.size - 8)).map TypeId.mk :=
  (map_snd_typed (length_collect initial program)).trans (collect_collected program).2

/-- The parents of the built-in classes. -/
theorem initial_parents : ∀ type : TypeId, type.index < 8 →
    (∀ parent, initial.parent? type = some parent → parent = .object) ∧
      (type.isConcrete = true → type ≠ .object → initial.parent? type = some .object) ∧
      initial.parent? .object = none := by
  intro type small
  have all : ∀ type ∈ initial.ids, (∀ parent ∈ initial.parent? type, parent = .object) ∧
      (type.isConcrete = true → type ≠ .object → initial.parent? type = some .object) ∧
      initial.parent? .object = none := by
    decide
  exact all type (mem_ids.mpr small)

theorem mem_numbered {typed : List (ClassDecl × TypeId)}
    (numbered : typed.map Prod.snd = (List.range' 8 (hierarchy.types.size - 8)).map TypeId.mk)
    {class' : ClassDecl × TypeId} (member : class' ∈ typed) :
    8 ≤ class'.2.index ∧ class'.2.index < hierarchy.types.size := by
  have listed := List.mem_map_of_mem (f := Prod.snd) member
  rw [numbered] at listed
  obtain ⟨index, inRange, same⟩ := List.mem_map.mp listed
  rw [List.mem_range'_1] at inRange
  rw [← same]
  dsimp only
  omega

/-- Before any class is linked, only built-in classes have parents. -/
theorem Collected.parent?_or (collected : hierarchy.Collected) (type : TypeId) :
    type.index < 8 ∧ hierarchy.parent? type = Hierarchy.initial.parent? type ∨
      hierarchy.parent? type = none := by
  by_cases small : type.index < 8
  · exact Or.inl ⟨small, congrArg TypeInfo.parent (collected.first type small)⟩
  · obtain ⟨name, isNamed⟩ := collected.exists_named (Nat.le_of_not_lt small)
    exact Or.inr (congrArg TypeInfo.parent isNamed)

theorem Collected.parent_eq_object (collected : hierarchy.Collected)
    (isParent : hierarchy.parent? type = some parent) : parent = .object := by
  rcases collected.parent?_or type with ⟨small, same⟩ | none
  · exact (initial_parents type small).1 parent (same ▸ isParent)
  · rw [none] at isParent
    cases isParent

/-- Once all classes have been collected, only these are to be linked. -/
theorem Collected.linked (collected : hierarchy.Collected) {pending : List TypeId}
    (numbered : pending = (List.range' 8 (hierarchy.types.size - 8)).map TypeId.mk) :
    Linked pending hierarchy := by
  have enough := collected.builtins
  refine ⟨enough, ?_, fun child found isParent => ?_, fun type isClass below absent => ?_⟩
  · rcases collected.parent?_or .object with ⟨small, same⟩ | none
    · exact same.trans (initial_parents .object small).2.2
    · exact none
  · obtain rfl := collected.parent_eq_object isParent
    exact ⟨rfl, Nat.lt_of_lt_of_le (by decide) enough⟩
  · have small : type.index < 8 := by
      by_contra large
      refine absent (numbered ▸ List.mem_map.mpr ⟨type.index, List.mem_range'_1.mpr ?_, rfl⟩)
      have known := isClass.known
      omega
    have same : hierarchy.parent? type = Hierarchy.initial.parent? type :=
      congrArg TypeInfo.parent (collected.first type small)
    exact ⟨.object, same.trans ((initial_parents type small).2.1 isClass.concrete below)⟩

theorem Linked.of_alike {pending : List TypeId} (linked : Linked pending hierarchy)
    (alike : hierarchy.Alike next) : Linked pending next where
  builtins := alike.size ▸ linked.builtins
  top := alike.parent? _ ▸ linked.top
  parents child parent isParent :=
    alike.isClass.mp (linked.parents child parent ((alike.parent? child).trans isParent))
  complete type isClass below absent :=
    alike.parent? type ▸ linked.complete type (alike.isClass.mpr isClass) below absent

theorem parent?_linkParents {typed : List (ClassDecl × TypeId)} (absent : type ∉ typed.map Prod.snd) :
    (reportEach linkParent hierarchy typed).1.parent? type = hierarchy.parent? type := by
  induction typed generalizing hierarchy with
  | nil => rfl
  | cons class' typed ih =>
      obtain ⟨other, absent⟩ := not_or.mp (mt List.mem_cons.mpr absent)
      exact (ih absent).trans (parent?_setParent_of_ne other)

/-- Where only the classes of a program have been linked, the other classes are on no cycle. -/
theorem linkParents_acyclic {typed : List (ClassDecl × TypeId)} (collected : hierarchy.Collected)
    (numbered : typed.map Prod.snd = (List.range' 8 (hierarchy.types.size - 8)).map TypeId.mk)
    {start : Hierarchy} (alike : start.Alike hierarchy)
    (linked : Linked [] (reportEach linkParent start typed).1)
    (size : (reportEach linkParent start typed).1.types.size = hierarchy.types.size) :
    AcyclicBut (typed.map Prod.snd) (reportEach linkParent start typed).1 := by
  intro type isClass absent
  have small : type.index < 8 := by
    by_contra large
    refine absent (numbered ▸ List.mem_map.mpr ⟨type.index, List.mem_range'_1.mpr ?_, rfl⟩)
    have known := isClass.known
    omega
  have same : (reportEach linkParent start typed).1.parent? type = Hierarchy.initial.parent? type := by
    rw [parent?_linkParents absent, alike.parent?]
    exact congrArg TypeInfo.parent (collected.first type small)
  obtain ⟨_, below, top⟩ := initial_parents type small
  rw [← Bool.not_eq_true, isOnCycle_iff, same]
  intro member
  by_cases isObject : type = .object
  · rw [isObject, top, line_none] at member
    cases member
  · rw [below isClass.concrete isObject] at member
    generalize (reportEach linkParent start typed).1.types.size - 1 = count at member
    cases count with
    | zero => cases member
    | succ count =>
        rw [line, linked.top, line_none, List.mem_singleton] at member
        exact isObject member

theorem size_linkParents (typed : List (ClassDecl × TypeId)) :
    (reportEach linkParent hierarchy typed).1.types.size = hierarchy.types.size :=
  reportEach_keeps (p := fun state : Hierarchy => state.types.size = hierarchy.types.size)
    (fun _ _ same => (size_update ..).trans same) rfl typed

theorem size_breakCycles (typed : List (ClassDecl × TypeId)) :
    (reportEach breakCycle hierarchy typed).1.types.size = hierarchy.types.size :=
  reportEach_keeps (p := fun state : Hierarchy => state.types.size = hierarchy.types.size)
    (fun _ _ same => by
      unfold breakCycle
      dsimp only
      split
      · exact (size_update ..).trans same
      · exact same) rfl typed

/-- Building adds no type. -/
theorem size_build (program : Program) (types : ClassTypes) :
    (hierarchy.build program types).1.types.size = hierarchy.types.size := by
  unfold build
  rw [(defineAllFeatures_alike _ (program.typed types)).size, size_breakCycles, size_linkParents,
    (defineBuiltins_alike hierarchy).size]

/-- Whatever parents the classes of a program declare, building leaves every class below `Object`. -/
theorem Collected.build_rooted {program : Program} {types : ClassTypes} (collected : hierarchy.Collected)
    (numbered : (program.typed types).map Prod.snd =
      (List.range' 8 (hierarchy.types.size - 8)).map TypeId.mk) :
    (hierarchy.build program types).1.Rooted := by
  have enough := collected.builtins
  have alike := defineBuiltins_alike hierarchy
  have areClasses : ∀ class' ∈ program.typed types,
      class'.2.index < hierarchy.defineBuiltins.types.size ∧ class'.2 ≠ .object := by
    intro class' member
    obtain ⟨large, known⟩ := mem_numbered numbered member
    refine ⟨alike.size.symm ▸ known, fun isObject => ?_⟩
    rw [isObject] at large
    exact absurd large (by decide)
  have linked := linkParents_linked _ areClasses ((collected.linked numbered).of_alike alike.symm)
  have size := (size_linkParents (program.typed types)).trans alike.size
  have acyclic := linkParents_acyclic collected numbered alike linked size
  obtain ⟨linked, acyclic⟩ := breakCycles_linked (program.typed types)
    (fun class' member => by
      rw [size_linkParents]
      exact areClasses class' member) linked acyclic
  exact (defineAllFeatures_alike _ (program.typed types)).symm.rooted (rooted_of_linked linked acyclic)

end Hierarchy

end CoolLang
