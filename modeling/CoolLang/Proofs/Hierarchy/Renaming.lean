import CoolLang.Analysis.Transport
import CoolLang.Proofs.Hierarchy.Signatures
import Mathlib.Data.List.Basic

/-!
Hierarchies under other type numbers. Whatever one hierarchy is asked for, one that renames its types answers the
same under the new numbers: what names mean, ancestors, conformance, unions, the features that a type has or
inherits, and what declarations make of names.
-/

namespace CoolLang

variable {rename : TypeId → TypeId}

/-! ### Numbers -/

namespace TypeId.Renumbers

variable {type left right current : TypeId} (renumbers : Renumbers rename)
include renumbers

theorem eq_iff : rename left = rename right ↔ left = right :=
  ⟨renumbers.injective left right, congrArg rename⟩

theorem beq (left right : TypeId) : (rename left == rename right) = (left == right) := by
  rw [Bool.eq_iff_iff, beq_iff_eq, beq_iff_eq]
  exact renumbers.eq_iff

theorem eq_builtin_iff {builtin : TypeId} (small : builtin.index < 8) : rename type = builtin ↔ type = builtin := by
  have same : rename type = rename builtin ↔ type = builtin := renumbers.eq_iff
  rwa [renumbers.builtin builtin small] at same

theorem bne_builtin {builtin : TypeId} (small : builtin.index < 8) : (rename type != builtin) = (type != builtin) := by
  rw [Bool.eq_iff_iff, bne_iff_ne, bne_iff_ne]
  exact not_congr (renumbers.eq_builtin_iff small)

theorem isConcrete (type : TypeId) : (rename type).isConcrete = type.isConcrete := by
  unfold TypeId.isConcrete
  rw [renumbers.bne_builtin (by decide), renumbers.bne_builtin (by decide), renumbers.bne_builtin (by decide)]

theorem isChecked (type : TypeId) : (rename type).isChecked = type.isChecked := by
  unfold TypeId.isChecked
  rw [renumbers.bne_builtin (by decide), renumbers.bne_builtin (by decide)]

theorem resolveIn (type current : TypeId) :
    (rename type).resolveIn (rename current) = rename (type.resolveIn current) := by
  unfold TypeId.resolveIn
  by_cases isSelf : type = .selfType
  · rw [if_pos isSelf, if_pos ((renumbers.eq_builtin_iff (by decide)).mpr isSelf)]
  · rw [if_neg isSelf, if_neg (mt (renumbers.eq_builtin_iff (by decide)).mp isSelf)]

theorem contains (types : List TypeId) (type : TypeId) :
    (types.map rename).contains (rename type) = types.contains type := by
  rw [Bool.eq_iff_iff, List.contains_iff_mem, List.contains_iff_mem]
  exact List.mem_map_of_injective renumbers.injective

theorem declared (name : String) (type : TypeId) :
    Variable.declared name (rename type) = (Variable.declared name type).retype rename := by
  have same : (rename type == TypeId.autoType) = (type == TypeId.autoType) := by
    rw [Bool.eq_iff_iff, beq_iff_eq, beq_iff_eq]
    exact renumbers.eq_builtin_iff (by decide)
  unfold Variable.declared Variable.retype
  rw [same]

end TypeId.Renumbers

/-! ### Lookups -/

namespace TypeInfo

variable {info : TypeInfo} {name : String}

theorem attribute?_retype :
    (info.retype rename).attribute? name = (info.attribute? name).map (Attribute.retype rename) :=
  List.find?_map ..

theorem method?_retype : (info.retype rename).method? name = (info.method? name).map (Method.retype rename) :=
  List.find?_map ..

/-- What is said with built-in types only is the same under other numbers. -/
theorem retype_of_builtin (fixed : ∀ type : TypeId, type.index < 8 → rename type = type)
    (parents : ∀ parent ∈ info.parent, parent.index < 8) (attributes : ∀ attr ∈ info.attributes, attr.type.index < 8)
    (methods : ∀ method ∈ info.methods,
      (∀ param ∈ method.params, param.type.index < 8) ∧ method.result.type.index < 8) : info.retype rename = info := by
  have ofVariable (info : Variable) (small : info.type.index < 8) : info.retype rename = info := by
    rw [Variable.retype, fixed _ small]
  obtain ⟨name, parent, attrs, known, isSealed⟩ := info
  have sameParent : parent.map rename = parent := Option.map_congr (fun type member => fixed type (parents type member))
    |>.trans Option.map_id'
  have sameAttributes : attrs.map (Attribute.retype rename) = attrs := by
    refine (List.map_congr_left fun attr member => ?_).trans (List.map_id attrs)
    rw [Attribute.retype, fixed _ (attributes attr member), id]
  have sameMethods : known.map (Method.retype rename) = known := by
    refine (List.map_congr_left fun method member => ?_).trans (List.map_id known)
    obtain ⟨params, result⟩ := methods method member
    have sameParams : method.params.map (Variable.retype rename) = method.params :=
      (List.map_congr_left fun param member => ofVariable param (params param member)).trans (List.map_id _)
    rw [Method.retype, sameParams, ofVariable _ result, id]
  rw [retype]
  dsimp only
  rw [sameParent, sameAttributes, sameMethods]

end TypeInfo

namespace Hierarchy

theorem findSome?_retype {α : Type} {find find' : TypeId → Option α} {change : α → α}
    (same : ∀ owner, find' (rename owner) = (find owner).map change) (owners : List TypeId) :
    (owners.map rename).findSome? (fun owner => (find' owner).map fun found => (owner, found)) =
      (owners.findSome? fun owner => (find owner).map fun found => (owner, found)).map (Prod.map rename change) := by
  induction owners with
  | nil => rfl
  | cons owner owners ih =>
      rw [List.map_cons, List.findSome?_cons, List.findSome?_cons, same]
      cases find owner with
      | none => exact ih
      | some found => rfl

namespace Renames

variable {one two : Hierarchy} (renames : Renames rename one two)
include renames

/-! ### Types -/

theorem name (type : TypeId) : two.name (rename type) = one.name type :=
  (congrArg TypeInfo.name (renames.info type)).trans rfl

theorem parent? (type : TypeId) : two.parent? (rename type) = (one.parent? type).map rename :=
  congrArg TypeInfo.parent (renames.info type)

theorem isSealed (type : TypeId) : (two.info (rename type)).isSealed = (one.info type).isSealed :=
  (congrArg TypeInfo.isSealed (renames.info type)).trans rfl

theorem line (count : Nat) (start : Option TypeId) :
    two.line count (start.map rename) = (one.line count start).map rename := by
  induction count generalizing start with
  | zero => rfl
  | succ count ih =>
      cases start with
      | none => rfl
      | some type => exact congrArg (rename type :: ·) ((congrArg _ (renames.parent? type)).trans (ih _))

theorem ancestors (type : TypeId) : two.ancestors (rename type) = (one.ancestors type).map rename := by
  unfold Hierarchy.ancestors
  rw [renames.size]
  exact renames.line _ (some type)

theorem get (name : String) : two.get name = (one.get name).map rename := by
  unfold Hierarchy.get
  rw [renames.find?]
  cases one.find? name <;> rfl

/-! ### Features -/

theorem attribute? (type : TypeId) (name : String) : two.attribute? (rename type) name =
    (one.attribute? type name).map (Prod.map rename (Attribute.retype rename)) := by
  rw [Hierarchy.attribute?, Hierarchy.attribute?, renames.ancestors]
  exact findSome?_retype (fun owner => by rw [renames.info, TypeInfo.attribute?_retype]) _

theorem method? (type : TypeId) (name : String) : two.method? (rename type) name =
    (one.method? type name).map (Prod.map rename (Method.retype rename)) := by
  rw [Hierarchy.method?, Hierarchy.method?, renames.ancestors]
  exact findSome?_retype (fun owner => by rw [renames.info, TypeInfo.method?_retype]) _

/-! ### Declarations -/

theorem declaredParent (decl : ClassDecl) :
    two.declaredParent decl = ((one.declaredParent decl).map rename id) := by
  have object := (renames.builtin .object (by decide)).symm
  unfold Hierarchy.declaredParent
  cases decl.parent with
  | none => exact congrArg (·, []) object
  | some written =>
      dsimp only
      rw [renames.get]
      cases one.get written.name with
      | error error => exact congrArg (·, _) object
      | ok parent =>
          dsimp only [Except.map]
          rw [renames.isConcrete, renames.isSealed]
          split
          · exact congrArg (·, _) object
          · rfl

theorem resolve (written : Ident) : two.resolve written = (one.resolve written).map rename id := by
  unfold Hierarchy.resolve
  rw [renames.get]
  cases one.get written.name with
  | error error => exact congrArg (·, _) (renames.builtin .error (by decide)).symm
  | ok type => rfl

theorem resolveParam (param : Param) :
    two.resolveParam param = (one.resolveParam param).map (Prod.map id rename) id := by
  unfold Hierarchy.resolveParam
  rw [renames.resolve]
  dsimp only [Prod.map, id]
  by_cases isSelf : (one.resolve param.type).1 = .selfType
  · rw [if_pos isSelf, if_pos ((renames.eq_builtin_iff (by decide)).mpr isSelf), renames.builtin .error (by decide)]
  · rw [if_neg isSelf, if_neg (mt (renames.eq_builtin_iff (by decide)).mp isSelf)]

theorem declaredAttribute (decl : AttributeDecl) :
    two.declaredAttribute decl = (one.declaredAttribute decl).retype rename := by
  unfold Hierarchy.declaredAttribute
  rw [renames.resolve]
  rfl

theorem declaredMethod (decl : MethodDecl) :
    two.declaredMethod decl = (one.declaredMethod decl).retype rename := by
  unfold Hierarchy.declaredMethod Method.declared Method.retype
  rw [renames.resolve, List.map_map, List.map_map, List.map_map]
  refine congrArg₂ (fun params result => Method.mk _ params result _) (List.map_congr_left fun param _ => ?_) ?_
  · rw [Function.comp_apply, renames.resolveParam]
    exact renames.declared _ _
  · exact renames.declared _ _

/-! ### Overrides -/

theorem sameType (left right : TypeId) : Hierarchy.sameType (rename left) (rename right) = sameType left right := by
  unfold Hierarchy.sameType
  rw [renames.beq, renames.isChecked, renames.isChecked]

theorem sameSignature (left right : Method) :
    Hierarchy.sameSignature (left.retype rename) (right.retype rename) = sameSignature left right := by
  have params : (((left.params.map (Variable.retype rename)).zip (right.params.map (Variable.retype rename))).all
      fun pair => Hierarchy.sameType pair.1.type pair.2.type) =
        (left.params.zip right.params).all fun pair => Hierarchy.sameType pair.1.type pair.2.type := by
    rw [List.zip_map, List.all_map]
    exact congrArg (List.all _) (funext fun pair => renames.sameType pair.1.type pair.2.type)
  unfold Hierarchy.sameSignature Method.retype
  dsimp only
  rw [List.length_map, List.length_map]
  refine congrArg₂ (· && ·) (congrArg (_ && ·) params) (renames.sameType _ _)

theorem overrides (type : TypeId) : two.overrides (rename type) = one.overrides type := by
  unfold Hierarchy.overrides
  rw [renames.parent?, renames.info]
  cases one.parent? type with
  | none => rfl
  | some parent =>
      dsimp only [TypeInfo.retype, Option.map_some]
      rw [List.filterMap_map, List.filterMap_map]
      refine congrArg₂ (· ++ ·) (List.filterMap_congr fun attr _ => ?_) (List.filterMap_congr fun method _ => ?_)
      · have isName : (attr.retype rename).name = attr.name := rfl
        rw [Function.comp_apply, attributeOverride?, attributeOverride?, isName, renames.attribute?, Option.map_map]
        refine congrArg (Option.map · _) (funext fun found => ?_)
        exact congrArg (fun owner => Diagnostic.mk attr.position (.duplicateAttribute attr.name owner))
          (renames.name found.1)
      · have isName : (method.retype rename).name = method.name := rfl
        rw [Function.comp_apply, methodOverride?, methodOverride?, isName, renames.method?]
        cases one.method? parent method.name with
        | none => rfl
        | some found =>
            obtain ⟨owner, inherited⟩ := found
            dsimp only [Option.map_some, Prod.map_apply]
            rw [renames.sameSignature, renames.name, renames.name]
            rfl

end Renames

end Hierarchy

end CoolLang
