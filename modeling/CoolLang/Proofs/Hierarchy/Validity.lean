import CoolLang.Proofs.Hierarchy.Linking

/-!
The types in signatures. Building gives every attribute, parameter and result a type that the hierarchy
knows, no parameter has the type `SELF_TYPE`, and where nothing is reported none has the error type
(`Hierarchy.Collected.build_valid`). So the types that the hierarchy gives to expressions mean the same
in all classes (`Hierarchy.gives_absolute`).
-/

namespace CoolLang

/-- Steps that report nothing where nothing at all is reported. -/
theorem reportEach_keeps_clean {σ α : Type} {p : σ → Prop} {step : σ → α → Reported σ} {clean : Prop}
    (keeps : ∀ state item, p state → (clean → (step state item).2 = []) → p (step state item).1)
    {state : σ} (holds : p state) (items : List α)
    (isClean : clean → (reportEach step state items).2 = []) : p (reportEach step state items).1 := by
  induction items generalizing state with
  | nil => exact holds
  | cons item items ih =>
      exact ih (keeps state item holds fun clean => (List.append_eq_nil_iff.mp (isClean clean)).1)
        fun clean => (List.append_eq_nil_iff.mp (isClean clean)).2

/-- Whether a type is one of the first `size`, and not the error type where the declarations are
`clean`. -/
structure TypeId.Valid (clean : Prop) (size : Nat) (type : TypeId) : Prop where
  known : type.index < size
  noError : clean → type ≠ .error

structure Method.Valid (clean : Prop) (size : Nat) (method : Method) : Prop where
  params : ∀ param ∈ method.params, param.type.Valid clean size ∧ param.type ≠ .selfType
  result : method.result.type.Valid clean size

structure TypeInfo.Valid (clean : Prop) (size : Nat) (info : TypeInfo) : Prop where
  attributes : ∀ attr ∈ info.attributes, attr.type.Valid clean size
  methods : ∀ method ∈ info.methods, method.Valid clean size

/-- A type that is one of the first `size`, and that means the same in every class. -/
structure TypeId.Absolute (size : Nat) (type : TypeId) : Prop where
  known : type.index < size
  notSelf : type ≠ .selfType

theorem TypeId.Absolute.resolveIn {size : Nat} {type current : TypeId} (isClass : current.Absolute size)
    (known : type.index < size) : (type.resolveIn current).Absolute size := by
  unfold TypeId.resolveIn
  split
  · exact isClass
  · exact ⟨known, ‹_›⟩

theorem TypeId.ne_selfType_of_isConcrete {type : TypeId} (concrete : type.isConcrete = true) :
    type ≠ .selfType := by
  rintro rfl
  cases concrete

variable {clean : Prop} {size : Nat}

namespace TypeInfo

theorem named_valid (name : String) : (named name).Valid clean size :=
  ⟨nofun, nofun⟩

theorem updateMethod_valid {info : TypeInfo} {name : String} {change : Method → Method}
    (valid : info.Valid clean size)
    (keeps : ∀ method ∈ info.methods, (change method).Valid clean size) :
    (info.updateMethod name change).Valid clean size := by
  refine ⟨valid.attributes, fun method member => ?_⟩
  obtain ⟨method, isMethod, rfl⟩ := List.mem_map.mp member
  split
  · exact keeps method isMethod
  · exact valid.methods method isMethod

theorem putMethod_valid {info : TypeInfo} {method : Method} (valid : info.Valid clean size)
    (fits : method.Valid clean size) : (info.putMethod method).Valid clean size := by
  unfold putMethod
  split
  · exact updateMethod_valid valid fun _ _ => fits
  · refine ⟨valid.attributes, fun other member => ?_⟩
    rcases List.mem_append.mp member with member | member
    · exact valid.methods other member
    · obtain rfl := List.mem_singleton.mp member
      exact fits

end TypeInfo

theorem Method.declared_valid {name : String} {params : List (String × TypeId)} {result : TypeId}
    {position : Position}
    (ofParams : ∀ param ∈ params, param.2.Valid clean size ∧ param.2 ≠ .selfType)
    (ofResult : result.Valid clean size) : (declared name params result position).Valid clean size := by
  refine ⟨fun param member => ?_, ofResult⟩
  obtain ⟨param, isParam, rfl⟩ := List.mem_map.mp member
  exact ofParams param isParam

namespace Hierarchy

variable {hierarchy : Hierarchy}

/-- Whether all types in signatures are valid. -/
def Valid (clean : Prop) (hierarchy : Hierarchy) : Prop :=
  ∀ owner, (hierarchy.info owner).Valid clean hierarchy.types.size

theorem update_valid {owner : TypeId} {change : TypeInfo → TypeInfo} (valid : hierarchy.Valid clean)
    (keeps : (change (hierarchy.info owner)).Valid clean hierarchy.types.size) :
    (hierarchy.update owner change).Valid clean := by
  intro type
  rw [size_update]
  rcases hierarchy.info_update owner change type with ⟨_, same⟩ | ⟨rfl, unknown | changed⟩
  · exact same ▸ valid type
  · exact unknown ▸ TypeInfo.named_valid ""
  · exact changed ▸ keeps

theorem Collected.valid (collected : hierarchy.Collected) : hierarchy.Valid clean := by
  intro type
  obtain ⟨noAttributes, noMethods⟩ := collected.featureless type
  exact ⟨noAttributes ▸ nofun, noMethods ▸ nofun⟩

theorem Valid.setParent (valid : hierarchy.Valid clean) (type parent : TypeId) :
    (hierarchy.setParent type parent).Valid clean :=
  update_valid valid ⟨(valid type).attributes, (valid type).methods⟩

theorem linkParent_valid (valid : hierarchy.Valid clean) (typed : ClassDecl × TypeId) :
    (hierarchy.linkParent typed).1.Valid clean :=
  valid.setParent _ _

theorem breakCycle_valid (valid : hierarchy.Valid clean) (typed : ClassDecl × TypeId) :
    (hierarchy.breakCycle typed).1.Valid clean := by
  unfold breakCycle
  dsimp only
  split
  · exact valid.setParent _ _
  · exact valid

theorem builtinMethods_valid (enough : 8 ≤ size) :
    ∀ builtin ∈ builtinMethods, builtin.2.Valid clean size := by
  have small : ∀ builtin ∈ builtinMethods,
      (∀ param ∈ builtin.2.params, param.type.index < 8 ∧ param.type ≠ .error ∧
        param.type ≠ .selfType) ∧
      builtin.2.result.type.index < 8 ∧ builtin.2.result.type ≠ .error := by
    decide
  intro builtin member
  obtain ⟨params, result⟩ := small builtin member
  exact ⟨fun param isParam => ⟨⟨Nat.lt_of_lt_of_le (params param isParam).1 enough,
    fun _ => (params param isParam).2.1⟩, (params param isParam).2.2⟩,
    Nat.lt_of_lt_of_le result.1 enough, fun _ => result.2⟩

theorem defineBuiltins_valid (valid : hierarchy.Valid clean) (enough : 8 ≤ hierarchy.types.size) :
    hierarchy.defineBuiltins.Valid clean := by
  unfold defineBuiltins
  have fits : ∀ builtin ∈ builtinMethods, builtin.2.Valid clean hierarchy.types.size :=
    builtinMethods_valid enough
  generalize builtinMethods = builtins at fits
  induction builtins generalizing hierarchy with
  | nil => exact valid
  | cons builtin builtins ih =>
      obtain ⟨first, later⟩ := List.forall_mem_cons.mp fits
      exact ih (update_valid valid (TypeInfo.putMethod_valid (valid _) first))
        (by rw [size_update]; exact enough) (by rw [size_update]; exact later)

section

variable (enough : 8 ≤ hierarchy.types.size)
include enough

theorem error_known : TypeId.error.index < hierarchy.types.size :=
  Nat.lt_of_lt_of_le (by decide) enough

theorem resolve_valid (written : Ident) (isClean : clean → (hierarchy.resolve written).2 = []) :
    (hierarchy.resolve written).1.Valid clean hierarchy.types.size := by
  unfold resolve at isClean ⊢
  cases found : hierarchy.get written.name with
  | ok type =>
      obtain ⟨known, notError, _⟩ := find?_known (get_eq_ok.mp found)
      exact ⟨known, fun _ => notError⟩
  | error error =>
      rw [found] at isClean
      exact ⟨error_known enough, fun clean => nomatch isClean clean⟩

theorem resolveParam_valid (param : Param) (isClean : clean → (hierarchy.resolveParam param).2 = []) :
    (hierarchy.resolveParam param).1.2.Valid clean hierarchy.types.size ∧
      (hierarchy.resolveParam param).1.2 ≠ .selfType := by
  unfold resolveParam at isClean ⊢
  dsimp only at isClean ⊢
  split
  · rename_i isSelf
    rw [if_pos isSelf] at isClean
    exact ⟨⟨error_known enough,
      fun clean => absurd (isClean clean) (List.append_ne_nil_of_right_ne_nil _ (List.cons_ne_nil _ _))⟩,
      nofun⟩
  · rename_i notSelf
    rw [if_neg notSelf] at isClean
    exact ⟨resolve_valid enough param.type isClean, notSelf⟩

theorem defineFeature_valid (valid : hierarchy.Valid clean) (type : TypeId) (feature : Feature)
    (isClean : clean → (defineFeature type hierarchy feature).2 = []) :
    (defineFeature type hierarchy feature).1.Valid clean := by
  rcases feature with decl | decl
  · unfold defineFeature defineAttribute at isClean ⊢
    dsimp only at isClean ⊢
    have fits : (hierarchy.resolve decl.type).1.Valid clean hierarchy.types.size :=
      resolve_valid enough decl.type fun clean => (List.append_eq_nil_iff.mp (isClean clean)).1
    split
    · exact valid
    · refine update_valid valid ⟨fun attr member => ?_, (valid type).methods⟩
      rcases List.mem_append.mp member with member | member
      · exact (valid type).attributes attr member
      · obtain rfl := List.mem_singleton.mp member
        exact fits
  · unfold defineFeature defineMethod at isClean ⊢
    dsimp only at isClean ⊢
    have resolved (holds : clean) :=
      List.append_eq_nil_iff.mp (List.append_eq_nil_iff.mp (isClean holds)).1
    split
    · exact valid
    · refine update_valid valid (TypeInfo.putMethod_valid (valid type) (Method.declared_valid ?_
        (resolve_valid enough decl.result fun clean => (resolved clean).2)))
      intro param member
      obtain ⟨_, isResolved, rfl⟩ := List.mem_map.mp member
      obtain ⟨param, isParam, rfl⟩ := List.mem_map.mp isResolved
      exact resolveParam_valid enough param fun clean =>
        List.flatMap_eq_nil_iff.mp (resolved clean).1 _ (List.mem_map_of_mem isParam)

end

theorem IsClass.absolute {type : TypeId} (isClass : hierarchy.IsClass type) :
    type.Absolute hierarchy.types.size :=
  ⟨isClass.known, TypeId.ne_selfType_of_isConcrete isClass.concrete⟩

theorem method?_valid (valid : hierarchy.Valid clean) {type owner : TypeId} {name : String}
    {method : Method} (found : hierarchy.method? type name = some (owner, method)) :
    method.Valid clean hierarchy.types.size :=
  (valid owner).methods method (method?_mem found).2.2

/-- In a valid hierarchy, every expression has a type that means the same in all classes. -/
theorem gives_absolute (rooted : hierarchy.Rooted) (valid : hierarchy.Valid clean) :
    hierarchy.Gives (TypeId.Absolute hierarchy.types.size) where
  error := ⟨Nat.lt_of_lt_of_le (by decide) rooted.builtins, nofun⟩
  object := (rooted.isClass_builtin rfl (by decide)).absolute
  int := (rooted.isClass_builtin rfl (by decide)).absolute
  string := (rooted.isClass_builtin rfl (by decide)).absolute
  bool := (rooted.isClass_builtin rfl (by decide)).absolute
  written _ _ found concrete :=
    ⟨(find?_known found).1, TypeId.ne_selfType_of_isConcrete concrete⟩
  parent child parent isParent := (rooted.parents child parent isParent).absolute
  result _ _ _ _ _ _ found ofReceiver := ofReceiver.resolveIn (method?_valid valid found).result.known
  param _ _ _ _ _ found param member concrete :=
    ⟨((method?_valid valid found).params param member).1.known,
      TypeId.ne_selfType_of_isConcrete concrete⟩

/-- All signatures are valid after building, and they are so without an error type if building has
reported nothing. -/
theorem Collected.build_valid {program : Program} {types : ClassTypes} (collected : hierarchy.Collected)
    (isClean : clean → (hierarchy.build program types).2 = []) :
    (hierarchy.build program types).1.Valid clean := by
  have enough := collected.builtins
  have linked := reportEach_keeps (p := Hierarchy.Valid clean)
    (fun _ typed valid => linkParent_valid valid typed)
    (defineBuiltins_valid collected.valid enough) (program.typed types)
  have acyclic := reportEach_keeps (p := Hierarchy.Valid clean)
    (fun _ typed valid => breakCycle_valid valid typed) linked (program.typed types)
  have size : 8 ≤ (reportEach breakCycle (reportEach linkParent hierarchy.defineBuiltins
      (program.typed types)).1 (program.typed types)).1.types.size :=
    reportEach_keeps (p := fun state : Hierarchy => 8 ≤ state.types.size) (fun state typed enough => by
      unfold breakCycle
      dsimp only
      split
      · rw [setParent, size_update]
        exact enough
      · exact enough)
      (by rw [size_linkParents, (defineBuiltins_alike hierarchy).size]; exact enough) _
  have keeps (state : Hierarchy) (typed : ClassDecl × TypeId)
      (holds : state.Valid clean ∧ 8 ≤ state.types.size)
      (isClean : clean → (state.defineFeatures typed).2 = []) :
      (state.defineFeatures typed).1.Valid clean ∧ 8 ≤ (state.defineFeatures typed).1.types.size :=
    reportEach_keeps_clean (p := fun state : Hierarchy => state.Valid clean ∧ 8 ≤ state.types.size)
      (fun state feature holds isClean => ⟨defineFeature_valid holds.2 holds.1 typed.2 feature isClean,
        by rw [(defineFeature_alike typed.2 state feature).size]; exact holds.2⟩) holds _ isClean
  refine (reportEach_keeps_clean keeps ⟨acyclic, size⟩ (program.typed types) fun clean => ?_).1
  have all := isClean clean
  simp only [build, List.append_eq_nil_iff] at all
  exact all.1.1.2

end Hierarchy

end CoolLang
