import CoolLang.Hierarchy.Classes
import CoolLang.Inference.Rounds
import CoolLang.Proofs.Hierarchy.Ancestry

/-!
Declarations whose type is yet to be inferred. A declaration has the type `AUTO_TYPE` as long as it is
open and no longer, and only classes are observed; after a class hierarchy has been settled, no
declaration of a class is open (`Hierarchy.settleOpen_consistent`).
-/

namespace CoolLang

variable {settled weaker : Prop} {type : TypeId}

/-! ### Variables -/

/-- Only an open declaration has no type yet, and none is open once all are settled. What has been observed
is a class. -/
structure Variable.Consistent (settled : Prop) (info : Variable) : Prop where
  isOpen : info.type = .autoType → info.isOpen = true
  unsettled : info.isOpen = true → ¬ settled
  concrete : info.inferred = true → info.type.isConcrete = true

namespace Variable

variable {info other : Variable}

theorem Consistent.mono (consistent : info.Consistent settled) (weak : weaker → settled) :
    info.Consistent weaker :=
  ⟨consistent.isOpen, fun isOpen holds => consistent.unsettled isOpen (weak holds), consistent.concrete⟩

theorem Consistent.closed (consistent : info.Consistent True) : info.isOpen = false :=
  Bool.eq_false_iff.mpr fun isOpen => consistent.unsettled isOpen trivial

theorem Consistent.ne_autoType (consistent : info.Consistent True) : info.type ≠ .autoType :=
  fun isAuto => consistent.unsettled (consistent.isOpen isAuto) trivial

theorem declared_consistent (name : String) (type : TypeId) (unsettled : ¬ settled) :
    (declared name type).Consistent settled :=
  ⟨fun (isAuto : type = .autoType) => by subst isAuto; rfl, fun _ => unsettled, nofun⟩

theorem isOpen_of_inferred (inferred : info.inferred = true) : info.isOpen = false := by
  rw [isOpen, inferred, Bool.not_true, Bool.and_false]

theorem consistent_of_concrete (inferred : info.inferred = true) (concrete : info.type.isConcrete = true) :
    info.Consistent settled :=
  ⟨fun isAuto => absurd isAuto (TypeId.ne_autoType_of_isConcrete concrete),
    fun isOpen => absurd isOpen (by rw [isOpen_of_inferred inferred]; exact Bool.false_ne_true),
    fun _ => concrete⟩

theorem settle_consistent (concrete : type.isConcrete = true) : (info.settle type).Consistent settled :=
  consistent_of_concrete rfl concrete

theorem observeHint_consistent (consistent : info.Consistent settled) :
    (info.observeHint type).Consistent settled := by
  unfold observeHint
  split
  · rename_i accepted
    exact settle_consistent (Bool.and_eq_true_iff.mp accepted).2
  · exact consistent

section

variable {join : TypeId → TypeId → TypeId}
  (joins : ∀ left right : TypeId, left.isConcrete = true → right.isConcrete = true →
    (join left right).isConcrete = true)
include joins

theorem observeValue_consistent (consistent : info.Consistent settled) :
    (info.observeValue join type).Consistent settled := by
  unfold observeValue
  split
  · exact consistent
  · rename_i accepted
    have concrete : type.isConcrete = true := by
      cases isConcrete : type.isConcrete with
      | true => rfl
      | false => exact absurd (by rw [isConcrete, Bool.not_false, Bool.or_true]) accepted
    split
    · rename_i inferred
      exact consistent_of_concrete inferred (joins info.type type (consistent.concrete inferred) concrete)
    · exact settle_consistent concrete

theorem merge_consistent (consistent : info.Consistent settled)
    (concrete : other.inferred = true → other.type.isConcrete = true) :
    (info.merge join other).Consistent settled := by
  unfold merge
  split
  · exact consistent
  · rename_i inferred
    split
    · exact observeValue_consistent joins consistent
    · exact settle_consistent (concrete (by simpa using inferred))

end

theorem settleOpen_consistent (consistent : info.Consistent settled) :
    info.settleOpen.Consistent True := by
  unfold settleOpen
  split
  · exact settle_consistent rfl
  · rename_i closed
    exact ⟨consistent.isOpen, fun isOpen => absurd isOpen closed, consistent.concrete⟩

end Variable

/-! ### Signatures -/

structure Method.Consistent (settled : Prop) (method : Method) : Prop where
  params : ∀ param ∈ method.params, param.Consistent settled
  result : method.result.Consistent settled

theorem Method.Consistent.mono {method : Method} (consistent : method.Consistent settled)
    (weak : weaker → settled) : method.Consistent weaker :=
  ⟨fun param member => (consistent.params param member).mono weak, consistent.result.mono weak⟩

theorem Method.declared_consistent (name : String) (params : List (String × TypeId)) (result : TypeId)
    (position : Position) (unsettled : ¬ settled) :
    (declared name params result position).Consistent settled := by
  refine ⟨?_, Variable.declared_consistent name result unsettled⟩
  intro param member
  obtain ⟨⟨name, type⟩, _, rfl⟩ := List.mem_map.mp member
  exact Variable.declared_consistent name type unsettled

theorem Method.settleOpen_consistent {method : Method} (consistent : method.Consistent settled) :
    method.settleOpen.Consistent True := by
  refine ⟨?_, Variable.settleOpen_consistent consistent.result⟩
  intro param member
  obtain ⟨param, isParam, rfl⟩ := List.mem_map.mp member
  exact Variable.settleOpen_consistent (consistent.params param isParam)

theorem Attribute.settleOpen_ne_autoType (attr : Attribute) : attr.settleOpen.type ≠ .autoType := by
  unfold settleOpen
  split
  · exact fun impossible => nomatch impossible
  · assumption

/-! ### Types -/

structure TypeInfo.Consistent (settled : Prop) (info : TypeInfo) : Prop where
  parent : ∀ parent ∈ info.parent, parent.isConcrete = true
  attributes : ∀ attr ∈ info.attributes, attr.type = .autoType → ¬ settled
  methods : ∀ method ∈ info.methods, method.Consistent settled

namespace TypeInfo

variable {info : TypeInfo}

theorem Consistent.mono (consistent : info.Consistent settled) (weak : weaker → settled) :
    info.Consistent weaker :=
  ⟨consistent.parent,
    fun attr member isAuto holds => consistent.attributes attr member isAuto (weak holds),
    fun method member => (consistent.methods method member).mono weak⟩

theorem named_consistent (name : String) : (named name).Consistent settled :=
  ⟨nofun, nofun, nofun⟩

theorem settleOpen_consistent (consistent : info.Consistent settled) :
    TypeInfo.Consistent True { info with
      attributes := info.attributes.map Attribute.settleOpen
      methods := info.methods.map Method.settleOpen } := by
  refine ⟨consistent.parent, ?_, ?_⟩
  · intro attr member isAuto
    obtain ⟨attr, _, rfl⟩ := List.mem_map.mp member
    exact absurd isAuto attr.settleOpen_ne_autoType
  · intro method member
    obtain ⟨method, isMethod, rfl⟩ := List.mem_map.mp member
    exact Method.settleOpen_consistent (consistent.methods method isMethod)

theorem updateMethod_consistent {name : String} {change : Method → Method}
    (consistent : info.Consistent settled)
    (keeps : ∀ method ∈ info.methods, (change method).Consistent settled) :
    (info.updateMethod name change).Consistent settled := by
  refine ⟨consistent.parent, consistent.attributes, ?_⟩
  intro method member
  obtain ⟨method, isMethod, rfl⟩ := List.mem_map.mp member
  split
  · exact keeps method isMethod
  · exact consistent.methods method isMethod

theorem putMethod_consistent {method : Method} (consistent : info.Consistent settled)
    (fits : method.Consistent settled) : (info.putMethod method).Consistent settled := by
  unfold putMethod
  split
  · exact updateMethod_consistent consistent fun _ _ => fits
  · refine ⟨consistent.parent, consistent.attributes, ?_⟩
    intro other member
    rcases List.mem_append.mp member with member | member
    · exact consistent.methods other member
    · obtain rfl := List.mem_singleton.mp member
      exact fits

end TypeInfo

/-! ### Hierarchies -/

namespace Hierarchy

/-- The sentinels are never settled, as no class is declared by their names. -/
def Consistent (settled : Prop) (hierarchy : Hierarchy) : Prop :=
  ∀ type, (hierarchy.info type).Consistent (settled ∧ type.isConcrete = true)

variable {hierarchy : Hierarchy}

theorem Consistent.parent (consistent : hierarchy.Consistent settled) (child parent : TypeId)
    (isParent : hierarchy.parent? child = some parent) : parent.isConcrete = true :=
  (consistent child).parent parent isParent

theorem Consistent.union (consistent : hierarchy.Consistent settled) (left right : TypeId)
    (ofLeft : left.isConcrete = true) (ofRight : right.isConcrete = true) :
    (hierarchy.union left right).isConcrete = true :=
  union_of (p := fun type => type.isConcrete = true) consistent.parent rfl ofLeft ofRight

/-- What a call of a method of a settled class finds. -/
theorem Consistent.method? (consistent : hierarchy.Consistent True) {name : String} {owner : TypeId}
    {method : Method} (concrete : type.isConcrete = true)
    (found : hierarchy.method? type name = some (owner, method)) : method.Consistent True := by
  obtain ⟨member, _, isMethod⟩ := method?_mem found
  have concrete := ancestors_of (p := fun type => type.isConcrete = true) consistent.parent concrete
    owner member
  exact ((consistent owner).methods method isMethod).mono fun _ =>
    ⟨trivial, concrete⟩

/-- In a settled hierarchy, no expression has a type that is yet to be inferred. -/
theorem gives_resolved (consistent : hierarchy.Consistent True) : hierarchy.Gives (· ≠ .autoType) where
  error := nofun
  object := nofun
  int := nofun
  string := nofun
  bool := nofun
  written _ _ _ := TypeId.ne_autoType_of_isConcrete
  parent child parent isParent :=
    TypeId.ne_autoType_of_isConcrete (consistent.parent child parent isParent)
  result _ _ _ _ _ concrete found ofReceiver :=
    TypeId.resolveIn_ne_autoType (consistent.method? concrete found).result.ne_autoType ofReceiver
  param _ _ _ _ _ _ _ _ := TypeId.ne_autoType_of_isConcrete

theorem info_update (hierarchy : Hierarchy) (owner : TypeId) (change : TypeInfo → TypeInfo)
    (type : TypeId) :
    let after := (hierarchy.update owner change).info type
    type ≠ owner ∧ after = hierarchy.info type ∨
      type = owner ∧ (after = default ∨ after = change (hierarchy.info type)) := by
  obtain ⟨index⟩ := type
  obtain ⟨index'⟩ := owner
  unfold info update
  rw [Array.getElem?_modify]
  by_cases same : index' = index
  · rw [if_pos same]
    refine Or.inr ⟨congrArg TypeId.mk same.symm, ?_⟩
    cases hierarchy.types[index]? with
    | none => exact Or.inl rfl
    | some info => exact Or.inr rfl
  · rw [if_neg same]
    exact Or.inl ⟨fun isOwner => same (congrArg TypeId.index isOwner).symm, rfl⟩

theorem update_consistent {owner : TypeId} {change : TypeInfo → TypeInfo}
    (consistent : hierarchy.Consistent settled)
    (keeps : (change (hierarchy.info owner)).Consistent (settled ∧ owner.isConcrete = true)) :
    (hierarchy.update owner change).Consistent settled := by
  intro type
  rcases hierarchy.info_update owner change type with ⟨_, same⟩ | ⟨rfl, unknown | changed⟩
  · exact same ▸ consistent type
  · exact unknown ▸ TypeInfo.named_consistent ""
  · exact changed ▸ keeps

/-- Types settled one after the other: what is not settled yet is still to come. -/
theorem foldl_settleOpen_consistent (types : List TypeId)
    (consistent : ∀ type, (hierarchy.info type).Consistent (type ∉ types ∧ type.isConcrete = true)) :
    Consistent True (types.foldl
      (fun current type => current.update type fun info =>
        { info with
          attributes := info.attributes.map Attribute.settleOpen
          methods := info.methods.map Method.settleOpen })
      hierarchy) := by
  induction types generalizing hierarchy with
  | nil => exact fun type => (consistent type).mono fun ⟨_, concrete⟩ => ⟨List.not_mem_nil, concrete⟩
  | cons owner types ih =>
      refine ih fun type => ?_
      rcases hierarchy.info_update owner _ type with ⟨isOther, same⟩ | ⟨rfl, unknown | changed⟩
      · refine same ▸ (consistent type).mono fun ⟨later, concrete⟩ => ⟨?_, concrete⟩
        exact List.not_mem_cons_of_ne_of_not_mem isOther later
      · exact unknown ▸ TypeInfo.named_consistent ""
      · exact changed ▸ (TypeInfo.settleOpen_consistent (consistent type)).mono fun _ => trivial

theorem mem_concreteIds_or (hierarchy : Hierarchy) (concrete : type.isConcrete = true) :
    type ∈ hierarchy.concreteIds ∨ hierarchy.info type = default := by
  by_cases isKnown : type.index < hierarchy.types.size
  · exact Or.inl (List.mem_filter.mpr
      ⟨List.mem_map.mpr ⟨type.index, List.mem_range.mpr isKnown, rfl⟩, concrete⟩)
  · refine Or.inr ?_
    rw [info, Array.getElem?_eq_none (Nat.le_of_not_lt isKnown)]
    rfl

/-- No declaration of a class is open once all have been settled. -/
theorem settleOpen_consistent (consistent : hierarchy.Consistent settled) :
    hierarchy.settleOpen.Consistent True := by
  refine foldl_settleOpen_consistent _ fun type => ?_
  by_cases concrete : type.isConcrete = true
  · rcases hierarchy.mem_concreteIds_or concrete with isKnown | unknown
    · exact (consistent type).mono fun ⟨absent, _⟩ => absurd isKnown absent
    · exact unknown ▸ TypeInfo.named_consistent ""
  · exact (consistent type).mono fun ⟨_, holds⟩ => absurd holds concrete

end Hierarchy

end CoolLang
