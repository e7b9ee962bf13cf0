import CoolLang.Hierarchy.Registry
import CoolLang.Proofs.Hierarchy.Ancestry
import CoolLang.Proofs.Hierarchy.Distinct
import CoolLang.Proofs.Hierarchy.Signatures
import CoolLang.Proofs.Stateful

/-!
What a registry of types comes to. An operation that is refused changes nothing (`Registry.perform_atomic`), and one
that is not does to the registry what it does to the hierarchy as a whole (`Registry.Valid.apply_hierarchy`). So after
any operations the names and the numbers of types agree, and every type keeps its features by their names
(`Registry.performAll_valid`).
-/

namespace CoolLang

variable {registry : Registry} {id : TypeId} {stored : StoredType}

/-- Puts a method under its name. -/
def StoredType.put (stored : StoredType) (method : StoredMethod) : StoredType :=
  { stored with methods := stored.methods.insert method.name method }

namespace Registry

/-! ### The hierarchy that a registry comes to -/

theorem info_hierarchy (registry : Registry) (id : TypeId) : registry.hierarchy.info id = (registry.type id).toInfo := by
  rw [Hierarchy.info, hierarchy, Array.getElem?_map, type]
  cases registry.types[id.index]? <;> rfl

theorem name_hierarchy (registry : Registry) (id : TypeId) : registry.hierarchy.name id = registry.name id := by
  rw [Hierarchy.name, info_hierarchy]
  rfl

theorem size_hierarchy (registry : Registry) : registry.hierarchy.types.size = registry.types.size :=
  Array.size_map

theorem hierarchy_initial : initial.hierarchy = Hierarchy.initial := by
  decide +kernel

theorem hierarchy_add (registry : Registry) (name : String) (isFound : Bool) :
    (registry.add name isFound).hierarchy = ⟨registry.hierarchy.types.push (.named name)⟩ := by
  rw [hierarchy, add, Array.map_push]
  rfl

theorem hierarchy_update {change : StoredType → StoredType} {change' : TypeInfo → TypeInfo}
    (same : (change (registry.type id)).toInfo = change' (registry.type id).toInfo) :
    (registry.update id change).hierarchy = registry.hierarchy.update id change' := by
  refine congrArg Hierarchy.mk (Array.ext_getElem? fun index => ?_)
  rw [update, hierarchy, Array.getElem?_map, Array.getElem?_modify, Array.getElem?_modify, Array.getElem?_map]
  split
  · rename_i isOwner
    cases known : registry.types[index]? with
    | none => rfl
    | some stored =>
        rw [type, isOwner, known] at same
        exact congrArg some same
  · rfl

theorem type_update (registry : Registry) (id : TypeId) (change : StoredType → StoredType) (other : TypeId) :
    (registry.update id change).type other =
      if other = id ∧ other.index < registry.types.size then change (registry.type other) else registry.type other := by
  rw [type, update, Array.getElem?_modify, type]
  by_cases isOwner : other = id
  · subst isOwner
    rw [if_pos rfl]
    by_cases known : other.index < registry.types.size
    · rw [if_pos ⟨rfl, known⟩, Array.getElem?_eq_getElem known]
      rfl
    · rw [if_neg fun reached => known reached.2, Array.getElem?_eq_none (Nat.le_of_not_lt known)]
      rfl
  · have apart : id.index ≠ other.index := fun same => isOwner (congrArg TypeId.mk same.symm)
    rw [if_neg apart, if_neg fun reached => isOwner reached.1]

theorem type_add (registry : Registry) (name : String) (isFound : Bool) (id : TypeId) :
    (registry.add name isFound).type id =
      if id.index = registry.types.size then .named name else registry.type id := by
  rw [type, add, Array.getElem?_push, type]
  split <;> rfl

/-! ### Operations -/

/-- What an operation is refused for. -/
def Operation.refusal? (registry : Registry) : Operation → Option HierarchyError
  | .createType name => if (registry.names.lookup name).isSome then some (.duplicateType name) else none
  | .defineAttribute id attr =>
      if (registry.type id).attributes.any fun other => other.name == attr.name then
        some (.duplicateAttribute attr.name (registry.name id))
      else none
  | .defineMethod id name _ _ _ =>
      if ((registry.type id).methods.lookup name).isSome then some (.duplicateMethod name (registry.name id)) else none
  | .setParent _ _ | .defineBuiltins => none

def put (registry : Registry) (id : TypeId) (method : StoredMethod) : Registry :=
  registry.update id fun stored => stored.put method

/-- What an operation makes of a registry where it is not refused. -/
def Operation.effect (registry : Registry) : Operation → Option TypeId × Registry
  | .createType name => (some ⟨registry.types.size⟩, registry.add name true)
  | .setParent id parent => (none, registry.update id fun stored => { stored with parent := some parent })
  | .defineBuiltins =>
      (none, Hierarchy.builtinMethods.foldl (fun registry (id, method) => registry.put id (.ofMethod method)) registry)
  | .defineAttribute id attr =>
      (none, registry.update id fun stored => { stored with attributes := stored.attributes ++ [attr] })
  | .defineMethod id name params result position => (none, registry.put id (.declared name params result position))

theorem run_defineBuiltins (registry : Registry) : defineBuiltins.run.run registry =
    (.ok (), Hierarchy.builtinMethods.foldl (fun registry (id, method) => registry.put id (.ofMethod method))
      registry) := by
  unfold defineBuiltins
  induction Hierarchy.builtinMethods generalizing registry with
  | nil => rfl
  | cons builtin builtins ih => exact ih (registry.put builtin.1 (.ofMethod builtin.2))

theorem run_createType (registry : Registry) (name : String) : (createType name).run.run registry =
    if (registry.names.lookup name).isSome then (.error (.duplicateType name), registry)
    else (.ok ⟨registry.types.size⟩, registry.add name true) := by
  rw [createType, Refusable.run_get_bind]
  split <;> rfl

/-- An operation is refused before it changes anything, or does all that it does. -/
theorem run_perform (registry : Registry) (operation : Operation) :
    (perform operation).run.run registry =
      match operation.refusal? registry with
      | some error => (.error error, registry)
      | none => (.ok (operation.effect registry).1, (operation.effect registry).2) := by
  cases operation with
  | createType name =>
      rw [perform, Refusable.run_bind, run_createType, Operation.refusal?]
      by_cases taken : (registry.names.lookup name).isSome
      · rw [if_pos taken, if_pos taken]
      · rw [if_neg taken, if_neg taken]
        rfl
  | setParent id parent => rfl
  | defineBuiltins =>
      rw [perform, Refusable.run_bind, run_defineBuiltins]
      rfl
  | defineAttribute id attr =>
      rw [perform, Refusable.run_bind, defineAttribute, Refusable.run_get_bind, Operation.refusal?]
      dsimp only
      by_cases taken : (registry.type id).attributes.any fun other => other.name == attr.name
      · rw [if_pos taken, if_pos taken]
        rfl
      · rw [if_neg taken, if_neg taken]
        rfl
  | defineMethod id name params result position =>
      rw [perform, Refusable.run_bind, defineMethod, Refusable.run_get_bind, Operation.refusal?]
      dsimp only
      by_cases taken : ((registry.type id).methods.lookup name).isSome
      · rw [if_pos taken, if_pos taken]
        rfl
      · rw [if_neg taken, if_neg taken]
        rfl

theorem perform_atomic {after : Registry} {operation : Operation} {error : HierarchyError}
    (refused : (perform operation).run.run registry = (.error error, after)) : after = registry := by
  rw [run_perform] at refused
  split at refused
  · exact (Prod.mk.inj refused).2.symm
  · cases (Prod.mk.inj refused).1

end Registry

/-! ### What holds of every registry -/

structure StoredMethod.Valid (key : String) (method : StoredMethod) : Prop where
  name : method.name = key
  paramNames : method.paramNames.length = method.params.length
  auto_iff : ∀ info ∈ method.infos, info.auto = true ↔ info.type = TypeId.autoType

theorem Variable.auto_declared (name : String) (type : TypeId) :
    (declared name type).auto = true ↔ (declared name type).type = TypeId.autoType :=
  beq_iff_eq

theorem StoredMethod.declared_valid (name : String) (params : List (String × TypeId)) (result : TypeId)
    (position : Position) : (declared name params result position).Valid name where
  name := rfl
  paramNames := by rw [declared, List.length_map, List.length_map]
  auto_iff := by
    intro info member
    rcases List.mem_cons.mp member with rfl | member
    · exact Variable.auto_declared _ _
    · obtain ⟨param, -, rfl⟩ := List.mem_map.mp member
      exact Variable.auto_declared _ _

theorem StoredMethod.builtins_valid : ∀ builtin ∈ Hierarchy.builtinMethods,
    (ofMethod builtin.2).Valid builtin.2.name := by
  have auto : ∀ builtin ∈ Hierarchy.builtinMethods, ∀ info ∈ (ofMethod builtin.2).infos,
      info.auto = true ↔ info.type = TypeId.autoType := by
    decide
  exact fun builtin member => ⟨rfl, List.length_map .., auto builtin member⟩

/-- What holds of all that a registry keeps of a type. -/
structure StoredType.Valid (stored : StoredType) : Prop where
  distinct : stored.toInfo.Distinct
  methods : ∀ entry ∈ stored.methods, entry.2.Valid entry.1

namespace StoredType

theorem valid_of_bare (noAttributes : stored.attributes = []) (noMethods : stored.methods = []) : stored.Valid := by
  obtain ⟨name, parent, attributes, methods, isSealed⟩ := stored
  cases noAttributes
  cases noMethods
  exact ⟨⟨List.nodup_nil, List.nodup_nil⟩, nofun⟩

theorem Valid.name_eq (valid : stored.Valid) {entry : String × StoredMethod} (member : entry ∈ stored.methods) :
    entry.2.toMethod.name = entry.1 :=
  (valid.methods entry member).name

theorem Valid.keys (valid : stored.Valid) : stored.methods.map Prod.fst = stored.toInfo.methods.map Method.name := by
  rw [toInfo, List.map_map]
  exact List.map_congr_left fun entry member => (valid.name_eq member).symm

/-- A method is kept under its name. -/
theorem Valid.isSome_lookup (valid : stored.Valid) (name : String) :
    (stored.methods.lookup name).isSome = (stored.toInfo.method? name).isSome := by
  rw [Bool.eq_iff_iff, Keyed.isSome_lookup_iff, valid.keys, TypeInfo.isSome_method?_iff]

/-- Putting a method under its name is what it means to put it among the methods. -/
theorem Valid.toInfo_put (valid : stored.Valid) (method : StoredMethod) :
    (stored.put method).toInfo = stored.toInfo.putMethod method.toMethod := by
  have isKept := valid.isSome_lookup method.name
  have withMethods {methods methods' : List Method} (same : methods = methods') :
      (⟨stored.name, stored.parent, stored.attributes, methods, stored.isSealed⟩ : TypeInfo) =
        ⟨stored.name, stored.parent, stored.attributes, methods', stored.isSealed⟩ :=
    same ▸ rfl
  rw [TypeInfo.putMethod]
  split
  · rename_i taken
    have distinct : (stored.methods.map Prod.fst).Nodup := valid.keys ▸ valid.distinct.methods
    have inKeys : method.name ∈ stored.methods.map Prod.fst := Keyed.isSome_lookup_iff.mp (isKept.trans taken)
    rw [put, toInfo, Keyed.insert_eq_map method distinct inKeys]
    refine withMethods ?_
    rw [toInfo, List.map_map, List.map_map]
    refine List.map_congr_left fun entry member => ?_
    have isName := valid.name_eq member
    dsimp only [Function.comp_apply]
    rw [isName]
    have isMethod : method.toMethod.name = method.name := rfl
    rw [isMethod]
    split <;> rfl
  · rename_i free
    have isNew : ∀ entry ∈ stored.methods, entry.1 ≠ method.name := by
      intro entry member same
      exact free (isKept.symm.trans (Keyed.isSome_lookup_iff.mpr (List.mem_map.mpr ⟨entry, member, same⟩)))
    rw [put, toInfo, Keyed.insert_of_forall_ne method isNew]
    exact withMethods List.map_append

theorem Valid.put (valid : stored.Valid) {method : StoredMethod} (isMethod : method.Valid method.name) :
    (stored.put method).Valid where
  distinct := by
    rw [valid.toInfo_put]
    exact TypeInfo.putMethod_distinct valid.distinct method.toMethod
  methods := Keyed.forall_mem_update (fun key (method : StoredMethod) => method.Valid key) valid.methods isMethod
    fun _ _ => isMethod

end StoredType

namespace Registry

/-- Types are found by the names that they have, and keep each feature once. -/
structure Valid (registry : Registry) : Prop where
  enough : 8 ≤ registry.types.size
  lookup : ∀ name, registry.names.lookup name = registry.hierarchy.find? name
  named : ∀ id : TypeId, id.index < registry.types.size → id ≠ .error →
    registry.hierarchy.find? (registry.name id) = some id
  types : ∀ id, (registry.type id).Valid

theorem lookup_initial (name : String) : initial.names.lookup name = Hierarchy.initial.find? name := by
  have registered : ∀ name ∈ initial.names.map Prod.fst,
      initial.names.lookup name = Hierarchy.initial.find? name := by
    decide
  have all : ∀ id ∈ Hierarchy.initial.ids, id ≠ .error →
      Hierarchy.initial.name id ∈ initial.names.map Prod.fst := by
    decide
  by_cases isName : name ∈ initial.names.map Prod.fst
  · exact registered name isName
  · rw [Option.not_isSome_iff_eq_none.mp (mt Keyed.isSome_lookup_iff.mp isName)]
    refine (List.find?_eq_none.mpr fun id member found => isName ?_).symm
    rw [Bool.and_eq_true, bne_iff_ne, beq_iff_eq] at found
    exact found.2 ▸ all id member found.1

theorem initial_valid : initial.Valid := by
  have named : ∀ id ∈ Hierarchy.initial.ids, id ≠ .error →
      Hierarchy.initial.find? (Hierarchy.initial.name id) = some id := by
    decide
  have bare : ∀ id ∈ Hierarchy.initial.ids, (initial.type id).attributes = [] ∧ (initial.type id).methods = [] := by
    decide
  constructor
  · decide
  · rw [hierarchy_initial]
    exact lookup_initial
  · intro id known
    rw [← name_hierarchy, hierarchy_initial]
    exact named id (Hierarchy.mem_ids.mpr known)
  · intro id
    by_cases known : id.index < 8
    · obtain ⟨noAttributes, noMethods⟩ := bare id (Hierarchy.mem_ids.mpr known)
      exact StoredType.valid_of_bare noAttributes noMethods
    · rw [type, Array.getElem?_eq_none (Nat.le_of_not_lt known)]
      exact StoredType.valid_of_bare rfl rfl

theorem Valid.update {change : StoredType → StoredType} (valid : registry.Valid)
    (name : (change (registry.type id)).name = registry.name id) (keeps : (change (registry.type id)).Valid) :
    (registry.update id change).Valid := by
  have isHierarchy : (registry.update id change).hierarchy =
      registry.hierarchy.update id fun _ => (change (registry.type id)).toInfo :=
    hierarchy_update rfl
  have found : (registry.update id change).hierarchy.find? = registry.hierarchy.find? := by
    rw [isHierarchy]
    exact Hierarchy.find?_update (name.trans (registry.name_hierarchy id).symm)
  have size : (registry.update id change).types.size = registry.types.size := Array.size_modify ..
  constructor
  · rw [size]
    exact valid.enough
  · rw [found]
    exact valid.lookup
  · intro other known notError
    rw [size] at known
    have same : (registry.update id change).name other = registry.name other := by
      rw [Registry.name, type_update]
      split
      · rename_i reached
        rw [reached.1]
        exact name
      · rfl
    rw [found, same]
    exact valid.named other known notError
  · intro other
    rw [type_update]
    split
    · rename_i reached
      rw [reached.1]
      exact keeps
    · exact valid.types other

theorem Valid.add (valid : registry.Valid) {name : String} (free : registry.names.lookup name = none) :
    (registry.add name true).Valid := by
  have size : (registry.add name true).types.size = registry.types.size + 1 := Array.size_push _
  have enough : 8 ≤ registry.hierarchy.types.size := registry.size_hierarchy ▸ valid.enough
  have found (other : String) : (registry.add name true).hierarchy.find? other =
      (registry.hierarchy.find? other).or (if name = other then some ⟨registry.types.size⟩ else none) := by
    rw [hierarchy_add, Hierarchy.find?_push _ enough, size_hierarchy]
    rfl
  constructor
  · rw [size]
    exact Nat.le_succ_of_le valid.enough
  · intro other
    rw [found, ← valid.lookup, Registry.add, if_pos rfl, Keyed.lookup_insert]
    by_cases same : other = name
    · rw [if_pos same, if_pos same.symm, same, free]
      rfl
    · rw [if_neg same, if_neg (Ne.symm same), Option.or_none]
  · intro id known notError
    rw [size] at known
    rw [found, Registry.name, type_add]
    by_cases isNew : id.index = registry.types.size
    · rw [if_pos isNew, ← valid.lookup, show (StoredType.named name).name = name from rfl, free, if_pos rfl]
      exact congrArg (fun index => some (TypeId.mk index)) isNew.symm
    · have isKnown : id.index < registry.types.size := by omega
      rw [if_neg isNew, ← Registry.name, valid.named id isKnown notError]
      rfl
  · intro id
    rw [type_add]
    split
    · exact StoredType.valid_of_bare rfl rfl
    · exact valid.types id

theorem Valid.setParent (valid : registry.Valid) (id parent : TypeId) :
    (registry.update id fun stored => { stored with parent := some parent }).Valid := by
  obtain ⟨⟨attributes, methods⟩, areMethods⟩ := valid.types id
  exact valid.update rfl ⟨⟨attributes, methods⟩, areMethods⟩

theorem Valid.put (valid : registry.Valid) {method : StoredMethod} (isMethod : method.Valid method.name)
    (id : TypeId) : (registry.put id method).Valid :=
  valid.update rfl ((valid.types id).put isMethod)

theorem Valid.putBuiltins (valid : registry.Valid) {builtins : List (TypeId × Method)}
    (areMethods : ∀ builtin ∈ builtins, (StoredMethod.ofMethod builtin.2).Valid builtin.2.name) :
    (builtins.foldl (fun registry (id, method) => registry.put id (.ofMethod method)) registry).Valid := by
  induction builtins generalizing registry with
  | nil => exact valid
  | cons builtin builtins ih =>
      obtain ⟨isMethod, areMethods⟩ := List.forall_mem_cons.mp areMethods
      exact ih (valid.put isMethod builtin.1) areMethods

theorem Valid.addAttribute (valid : registry.Valid) {attr : Attribute}
    (free : ∀ other ∈ (registry.type id).attributes, other.name ≠ attr.name) :
    (registry.update id fun stored => { stored with attributes := stored.attributes ++ [attr] }).Valid := by
  obtain ⟨⟨attributes, methods⟩, areMethods⟩ := valid.types id
  refine valid.update rfl ⟨⟨?_, methods⟩, areMethods⟩
  change (((registry.type id).attributes ++ [attr]).map Attribute.name).Nodup
  rw [List.map_append, List.map_singleton]
  refine attributes.append (List.nodup_singleton _) (List.disjoint_singleton.mpr fun member => ?_)
  obtain ⟨other, isOther, same⟩ := List.mem_map.mp member
  exact free other isOther same

theorem Valid.effect (valid : registry.Valid) {operation : Operation}
    (accepted : operation.refusal? registry = none) : (operation.effect registry).2.Valid := by
  cases operation with
  | createType name =>
      rw [Operation.refusal?] at accepted
      split at accepted
      · cases accepted
      · exact valid.add (Option.not_isSome_iff_eq_none.mp ‹_›)
  | setParent id parent => exact valid.setParent id parent
  | defineBuiltins => exact valid.putBuiltins StoredMethod.builtins_valid
  | defineAttribute id attr =>
      rw [Operation.refusal?] at accepted
      split at accepted
      · cases accepted
      · rename_i free
        refine valid.addAttribute fun other member same => free ?_
        exact List.any_eq_true.mpr ⟨other, member, beq_iff_eq.mpr same⟩
  | defineMethod id name params result position =>
      exact valid.put (StoredMethod.declared_valid name params result position) id

/-! ### Operations on the hierarchy -/

theorem Valid.hierarchy_put (valid : registry.Valid) (id : TypeId) (method : StoredMethod) :
    (registry.put id method).hierarchy = registry.hierarchy.update id fun info => info.putMethod method.toMethod :=
  hierarchy_update ((valid.types id).toInfo_put method)

theorem Valid.hierarchy_putBuiltins (valid : registry.Valid) {builtins : List (TypeId × Method)}
    (areMethods : ∀ builtin ∈ builtins, (StoredMethod.ofMethod builtin.2).Valid builtin.2.name) :
    (builtins.foldl (fun registry (id, method) => registry.put id (.ofMethod method)) registry).hierarchy =
      builtins.foldl (fun current (owner, method) => current.update owner fun info => info.putMethod method)
        registry.hierarchy := by
  induction builtins generalizing registry with
  | nil => rfl
  | cons builtin builtins ih =>
      obtain ⟨isMethod, areMethods⟩ := List.forall_mem_cons.mp areMethods
      rw [List.foldl_cons, List.foldl_cons, ih (valid.put isMethod builtin.1) areMethods, valid.hierarchy_put]
      rfl

/-- An operation does to a registry what it does to the hierarchy that the registry comes to. -/
theorem Valid.apply_hierarchy (valid : registry.Valid) (operation : Operation) :
    operation.apply registry.hierarchy =
      match operation.refusal? registry with
      | some error => .error error
      | none => .ok ((operation.effect registry).1, (operation.effect registry).2.hierarchy) := by
  cases operation with
  | createType name =>
      rw [Operation.apply, Operation.refusal?, Hierarchy.create, valid.lookup]
      cases registry.hierarchy.find? name with
      | some taken => rfl
      | none =>
          dsimp only [Operation.effect]
          rw [hierarchy_add, size_hierarchy]
          rfl
  | setParent id parent =>
      have linked : (registry.update id fun stored => { stored with parent := some parent }).hierarchy =
          registry.hierarchy.setParent id parent :=
        hierarchy_update rfl
      dsimp only [Operation.apply, Operation.refusal?, Operation.effect]
      rw [linked]
  | defineBuiltins =>
      dsimp only [Operation.apply, Operation.refusal?, Operation.effect]
      rw [valid.hierarchy_putBuiltins StoredMethod.builtins_valid]
      rfl
  | defineAttribute id attr =>
      have taken : ((registry.type id).attributes.any fun other => other.name == attr.name) =
          ((registry.type id).toInfo.attribute? attr.name).isSome := by
        rw [Bool.eq_iff_iff, List.any_eq_true, TypeInfo.attribute?, List.find?_isSome]
        rfl
      rw [Operation.apply, Operation.refusal?, Hierarchy.defineAttribute, info_hierarchy, taken]
      cases (registry.type id).toInfo.attribute? attr.name with
      | some other => rfl
      | none =>
          have defined : (registry.update id fun stored =>
                { stored with attributes := stored.attributes ++ [attr] }).hierarchy =
              registry.hierarchy.update id fun info => { info with attributes := info.attributes ++ [attr] } :=
            hierarchy_update rfl
          dsimp only [Operation.effect]
          rw [defined]
          rfl
  | defineMethod id name params result position =>
      rw [Operation.apply, Operation.refusal?, Hierarchy.defineMethod, info_hierarchy,
        (valid.types id).isSome_lookup, show (Method.declared name params result position).name = name from rfl]
      cases (registry.type id).toInfo.method? name with
      | some other => rfl
      | none =>
          dsimp only [Operation.effect]
          rw [valid.hierarchy_put]
          rfl

/-! ### Runs -/

theorem performAll_cons (operation : Operation) (operations : List Operation) (registry : Registry) :
    (performAll (operation :: operations)).run registry =
      (((perform operation).run.run registry).1 ::
          ((performAll operations).run ((perform operation).run.run registry).2).1,
        ((performAll operations).run ((perform operation).run.run registry).2).2) :=
  rfl

/-- A registry has gained types, numbered one after the other. -/
def Gains (ids : List TypeId) (before after : Registry) : Prop :=
  after.types.size = before.types.size + ids.length ∧
    ids = (List.range' before.types.size ids.length).map TypeId.mk

instance : Composes Gains where
  refl _ := ⟨rfl, rfl⟩
  trans := by
    rintro first second before between after ⟨isBetween, areFirst⟩ ⟨isAfter, areSecond⟩
    refine ⟨by rw [isAfter, isBetween, List.length_append, Nat.add_assoc], ?_⟩
    rw [List.length_append, ← List.range'_append_1, List.map_append, ← areFirst, ← isBetween, ← areSecond]

theorem size_putBuiltins (registry : Registry) (builtins : List (TypeId × Method)) :
    (builtins.foldl (fun registry (id, method) => registry.put id (.ofMethod method)) registry).types.size =
      registry.types.size := by
  induction builtins generalizing registry with
  | nil => rfl
  | cons builtin builtins ih => exact (ih _).trans (Array.size_modify ..)

theorem effect_gains (registry : Registry) (operation : Operation) :
    Gains (operation.effect registry).1.toList registry (operation.effect registry).2 := by
  have nothing {after : Registry} (same : after.types.size = registry.types.size) : Gains [] registry after :=
    ⟨same, rfl⟩
  cases operation with
  | createType name => exact ⟨Array.size_push _, rfl⟩
  | setParent id parent => exact nothing (Array.size_modify ..)
  | defineBuiltins => exact nothing (size_putBuiltins registry _)
  | defineAttribute id attr => exact nothing (Array.size_modify ..)
  | defineMethod id name params result position => exact nothing (Array.size_modify ..)

/-- What an operation leaves of a valid registry, whether it is refused or not. -/
theorem Valid.perform (valid : registry.Valid) (operation : Operation) :
    let result := (Registry.perform operation).run.run registry
    result.2.Valid ∧ Gains (created? result.1).toList registry result.2 ∧
      result.2.hierarchy = operation.applyOrSkip registry.hierarchy := by
  rw [Operation.applyOrSkip, valid.apply_hierarchy, run_perform]
  cases refusal : operation.refusal? registry with
  | some error => exact ⟨valid, Composes.refl registry, rfl⟩
  | none => exact ⟨valid.effect refusal, effect_gains registry operation, rfl⟩

theorem created_cons (answer : Answer) (answers : List Answer) :
    created (answer :: answers) = (created? answer).toList ++ created answers := by
  rw [created, List.filterMap_cons, created]
  cases created? answer <;> rfl

theorem Valid.performAll (valid : registry.Valid) (operations : List Operation) :
    let run := (Registry.performAll operations).run registry
    run.2.Valid ∧ Gains (created run.1) registry run.2 ∧
      run.2.hierarchy = operations.foldl Operation.applyOrSkip registry.hierarchy := by
  induction operations generalizing registry with
  | nil => exact ⟨valid, Composes.refl registry, rfl⟩
  | cons operation operations ih =>
      obtain ⟨isValid, gains, isHierarchy⟩ := valid.perform operation
      obtain ⟨allValid, allGained, all⟩ := ih isValid
      rw [performAll_cons]
      dsimp only
      rw [created_cons, List.foldl_cons, ← isHierarchy]
      exact ⟨allValid, Composes.trans gains allGained, all⟩

theorem Valid.getType_eq_ok (valid : registry.Valid) {name : String} :
    registry.getType name = .ok id ↔ registry.hierarchy.find? name = some id := by
  rw [getType, valid.lookup]
  cases registry.hierarchy.find? name with
  | none => exact ⟨nofun, nofun⟩
  | some found =>
      exact ⟨fun same => congrArg some (Except.ok.inj same), fun same => congrArg Except.ok (Option.some.inj same)⟩

/-- Whatever operations are performed on a new registry, the refused ones among them, names and numbers agree: a type
other than the error type is found by its name, and what is found by a name has it. No type has two attributes of one
name. A method is kept under its name, with as many names of parameters as parameters. A declaration is open to
inference if it is written as `AUTO_TYPE`. The types that are created are numbered one after the other, and an operation
that is refused leaves any registry as it is. The registry comes to the hierarchy that the operations make. -/
theorem performAll_valid (operations : List Operation) :
    let run := (performAll operations).run initial
    let registry := run.2
    (∀ id : TypeId, id.index < registry.types.size → id ≠ .error → registry.getType (registry.name id) = .ok id) ∧
      (∀ name id, registry.getType name = .ok id → registry.name id = name) ∧
      (∀ stored ∈ registry.types, (stored.attributes.map Attribute.name).Nodup) ∧
      (∀ stored ∈ registry.types, ∀ entry ∈ stored.methods,
        entry.2.name = entry.1 ∧ entry.2.paramNames.length = entry.2.params.length) ∧
      (∀ stored ∈ registry.types, ∀ entry ∈ stored.methods, ∀ info ∈ entry.2.infos,
        info.auto = true ↔ info.type = TypeId.autoType) ∧
      (created run.1 = (List.range' 8 (created run.1).length).map TypeId.mk ∧
        registry.types.size = 8 + (created run.1).length) ∧
      (∀ before operation error after,
        (perform operation).run.run before = (.error error, after) → after = before) ∧
      registry.hierarchy = operations.foldl Operation.applyOrSkip Hierarchy.initial := by
  obtain ⟨valid, ⟨size, numbered⟩, isHierarchy⟩ := initial_valid.performAll operations
  generalize (performAll operations).run initial = run at valid size numbered isHierarchy
  have types {stored : StoredType} (member : stored ∈ run.2.types) : stored.Valid := by
    obtain ⟨index, bound, rfl⟩ := Array.mem_iff_getElem.mp member
    have isValid := valid.types ⟨index⟩
    rwa [type, Array.getElem?_eq_getElem bound] at isValid
  refine ⟨fun id known notError => valid.getType_eq_ok.mpr (valid.named id known notError), fun name id found => ?_,
    fun stored member => (types member).distinct.attributes, fun stored member entry isEntry => ?_,
    fun stored member entry isEntry => ((types member).methods entry isEntry).auto_iff, ⟨numbered, size⟩,
    fun _ _ _ _ => perform_atomic, hierarchy_initial ▸ isHierarchy⟩
  · rw [← name_hierarchy]
    exact (Hierarchy.find?_known (valid.getType_eq_ok.mp found)).2.2
  · have isValid := (types member).methods entry isEntry
    exact ⟨isValid.name, isValid.paramNames⟩

/-- A class that is called like the error type is found, and the error type is not. -/
example : let run := (performAll [.createType "<error>", .createType "<error>"]).run initial
    run.1 = [.ok (some ⟨8⟩), .error (.duplicateType "<error>")] ∧ run.2.getType "<error>" = .ok ⟨8⟩ := by
  decide

end Registry

end CoolLang
