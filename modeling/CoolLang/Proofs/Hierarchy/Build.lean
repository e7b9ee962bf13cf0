import CoolLang.Proofs.Hierarchy.Consistency

/-!
What collecting and building leave: every class type is a class, every parent is one, and all
declarations are as they are written (`Hierarchy.build_consistent`).
-/

namespace CoolLang

theorem reportEach_keeps {σ α : Type} {p : σ → Prop} {step : σ → α → Reported σ}
    (keeps : ∀ state item, p state → p (step state item).1) {state : σ} (holds : p state)
    (items : List α) : p (reportEach step state items).1 := by
  induction items generalizing state with
  | nil => exact holds
  | cons item items ih => exact ih (keeps state item holds)

namespace Hierarchy

variable {hierarchy next : Hierarchy} {type : TypeId}

/-! ### Names -/

theorem initial_consistent (settled : Prop) : initial.Consistent settled := by
  have bare : ∀ info ∈ initial.types,
      info.parent.all TypeId.isConcrete = true ∧ info.attributes = [] ∧ info.methods = [] := by
    decide
  intro type
  unfold info
  cases known : initial.types[type.index]? with
  | none => exact TypeInfo.named_consistent ""
  | some info =>
      obtain ⟨parent, noAttributes, noMethods⟩ := bare info (Array.mem_of_getElem? known)
      refine ⟨fun found isParent => ?_, fun attr member => ?_, fun method member => ?_⟩
      · have isParent : info.parent = some found := isParent
        rw [isParent] at parent
        exact parent
      · exact nomatch (noAttributes ▸ member : attr ∈ [])
      · exact nomatch (noMethods ▸ member : method ∈ [])

theorem create_consistent {settled : Prop} {name : String} (consistent : hierarchy.Consistent settled)
    (enough : 8 ≤ hierarchy.types.size) (created : hierarchy.create name = .ok (type, next)) :
    next.Consistent settled ∧ 8 ≤ next.types.size ∧ type.isConcrete = true := by
  unfold create at created
  split at created
  · cases created
  · cases created
    refine ⟨fun type => ?_, ?_, ?_⟩
    · unfold info
      rw [Array.getElem?_push]
      split
      · exact TypeInfo.named_consistent name
      · exact consistent type
    · rw [Array.size_push]
      omega
    · have isClass (sentinel : TypeId) (small : sentinel.index < 8) :
          (TypeId.mk hierarchy.types.size != sentinel) = true :=
        bne_iff_ne.mpr fun same => by
          rw [← same] at small
          exact Nat.not_lt.mpr enough small
      rw [TypeId.isConcrete, isClass .selfType (by decide), isClass .autoType (by decide),
        isClass .error (by decide)]
      rfl

theorem collectAll_consistent {settled : Prop} (decls : List ClassDecl)
    (consistent : hierarchy.Consistent settled) (enough : 8 ≤ hierarchy.types.size) :
    (hierarchy.collectAll decls).1.Consistent settled ∧
      ∀ type, some type ∈ (hierarchy.collectAll decls).2.1 → type.isConcrete = true := by
  induction decls generalizing hierarchy with
  | nil => exact ⟨consistent, nofun⟩
  | cons decl decls ih =>
      rw [collectAll]
      split
      · rename_i type next created
        obtain ⟨consistent, enough, concrete⟩ := create_consistent consistent enough created
        obtain ⟨consistent, concretes⟩ := ih consistent enough
        refine ⟨consistent, fun other member => ?_⟩
        rcases List.mem_cons.mp member with same | later
        · cases same
          exact concrete
        · exact concretes other later
      · obtain ⟨consistent, concretes⟩ := ih consistent enough
        refine ⟨consistent, fun other member => ?_⟩
        rcases List.mem_cons.mp member with same | later
        · cases same
        · exact concretes other later

theorem collect_consistent (settled : Prop) (program : Program) :
    (initial.collect program).1.Consistent settled ∧
      ∀ type, some type ∈ (initial.collect program).2.1 → type.isConcrete = true :=
  collectAll_consistent program.classes (initial_consistent settled) (by decide)

/-! ### Parents and features -/

theorem builtinMethods_consistent {settled : Prop} (unsettled : ¬ settled) :
    ∀ builtin ∈ builtinMethods, builtin.2.Consistent settled := by
  simp only [builtinMethods, List.forall_mem_cons]
  and_intros
  on_goal 11 => exact fun _ member => nomatch member
  all_goals exact Method.declared_consistent _ _ _ _ unsettled

theorem declaredParent_isConcrete (hierarchy : Hierarchy) (decl : ClassDecl) :
    (hierarchy.declaredParent decl).1.isConcrete = true := by
  unfold declaredParent
  split
  · rfl
  · split
    · rfl
    · split
      · rfl
      · rename_i accepted
        cases concrete : TypeId.isConcrete _ with
        | true => rfl
        | false => exact absurd (by rw [concrete]; rfl) accepted

section

variable {settled : Prop} (consistent : hierarchy.Consistent settled)
include consistent

theorem setParent_consistent {parent : TypeId} (concrete : parent.isConcrete = true) :
    (hierarchy.setParent type parent).Consistent settled :=
  update_consistent consistent ⟨fun _ isParent => Option.some.inj isParent ▸ concrete,
    (consistent type).attributes, (consistent type).methods⟩

theorem linkParent_consistent (typed : ClassDecl × TypeId) :
    (hierarchy.linkParent typed).1.Consistent settled :=
  setParent_consistent consistent (hierarchy.declaredParent_isConcrete typed.1)

theorem breakCycle_consistent (typed : ClassDecl × TypeId) :
    (hierarchy.breakCycle typed).1.Consistent settled := by
  unfold breakCycle
  dsimp only
  split
  · exact setParent_consistent consistent rfl
  · exact consistent

end

section

variable (consistent : hierarchy.Consistent False)
include consistent

theorem defineBuiltins_consistent : hierarchy.defineBuiltins.Consistent False := by
  unfold defineBuiltins
  have fits : ∀ builtin ∈ builtinMethods, builtin.2.Consistent False :=
    builtinMethods_consistent not_false
  generalize builtinMethods = builtins at fits
  induction builtins generalizing hierarchy with
  | nil => exact consistent
  | cons builtin builtins ih =>
      obtain ⟨first, later⟩ := List.forall_mem_cons.mp fits
      exact ih (update_consistent consistent (TypeInfo.putMethod_consistent (consistent _)
        (first.mono And.left))) later

theorem defineFeature_consistent (type : TypeId) (feature : Feature) :
    (defineFeature type hierarchy feature).1.Consistent False := by
  rcases feature with decl | decl
  · unfold defineFeature defineAttribute
    dsimp only
    split
    · exact consistent
    · refine update_consistent consistent ⟨(consistent type).parent, ?_, (consistent type).methods⟩
      exact fun _ _ _ holds => holds.1
  · unfold defineFeature defineMethod
    dsimp only
    split
    · exact consistent
    · exact update_consistent consistent (TypeInfo.putMethod_consistent (consistent type)
        (Method.declared_consistent _ _ _ _ And.left))

theorem defineFeatures_consistent (typed : ClassDecl × TypeId) :
    (hierarchy.defineFeatures typed).1.Consistent False :=
  reportEach_keeps (p := Consistent False)
    (fun _ feature consistent => defineFeature_consistent consistent typed.2 feature) consistent
    typed.1.features

theorem build_consistent (program : Program) (types : ClassTypes) :
    (hierarchy.build program types).1.Consistent False := by
  have linked := reportEach_keeps (p := Consistent False)
    (fun _ typed consistent => linkParent_consistent consistent typed)
    (defineBuiltins_consistent consistent) (program.typed types)
  have acyclic := reportEach_keeps (p := Consistent False)
    (fun _ typed consistent => breakCycle_consistent consistent typed) linked (program.typed types)
  exact reportEach_keeps (p := Consistent False)
    (fun _ typed consistent => defineFeatures_consistent consistent typed) acyclic
    (program.typed types)

end

end Hierarchy

end CoolLang
