import CoolLang.Hierarchy.Basic
import CoolLang.Program.Basic
import Mathlib.Data.List.Basic

/-!
What ancestors and unions can be: a type itself or the parent of some type. A property of all parents is
one of all unions of types that have it (`Hierarchy.union_of`). So is a condition on the types that a
hierarchy gives to expressions: those that a program can name, the ancestors of types that are given, and the
results of methods (`Hierarchy.Gives.union`).
-/

namespace CoolLang

namespace TypeId

variable {type current : TypeId}

theorem ne_autoType_of_isConcrete (concrete : type.isConcrete = true) : type ≠ autoType := by
  rintro rfl
  cases concrete

theorem resolveIn_ne_autoType (known : type ≠ autoType) (isClass : current ≠ autoType) :
    type.resolveIn current ≠ autoType := by
  unfold resolveIn
  split
  · exact isClass
  · exact known

end TypeId

namespace Hierarchy

variable {hierarchy : Hierarchy}

theorem get_eq_ok {name : String} {type : TypeId} :
    hierarchy.get name = .ok type ↔ hierarchy.find? name = some type := by
  unfold get
  cases hierarchy.find? name with
  | none => exact ⟨nofun, nofun⟩
  | some found => exact ⟨fun same => congrArg some (Except.ok.inj same),
      fun same => congrArg Except.ok (Option.some.inj same)⟩

/-- A method that is found is one of those of an ancestor. -/
theorem method?_mem {type owner : TypeId} {name : String} {method : Method}
    (found : hierarchy.method? type name = some (owner, method)) :
    owner ∈ hierarchy.ancestors type ∧ (hierarchy.info owner).method? name = some method ∧
      method ∈ (hierarchy.info owner).methods := by
  obtain ⟨_, member, isFound⟩ := List.exists_of_findSome?_eq_some found
  obtain ⟨_, isMethod, same⟩ := Option.map_eq_some_iff.mp isFound
  cases same
  exact ⟨member, isMethod, List.mem_of_find?_eq_some isMethod⟩

/-- A line goes from each type to its parent. -/
theorem mem_line {count : Nat} {type found : TypeId} (member : found ∈ hierarchy.line count (some type)) :
    found = type ∨ ∃ child, hierarchy.parent? child = some found := by
  induction count generalizing type with
  | zero => cases member
  | succ count ih =>
      rcases List.mem_cons.mp member with same | above
      · exact Or.inl same
      · cases isParent : hierarchy.parent? type with
        | none =>
            rw [isParent] at above
            cases count <;> cases above
        | some parent =>
            rw [isParent] at above
            rcases ih above with rfl | isAbove
            · exact Or.inr ⟨type, isParent⟩
            · exact Or.inr isAbove

section

variable {p : TypeId → Prop}
  (parents : ∀ child parent, hierarchy.parent? child = some parent → p parent)
include parents

theorem ancestors_of {type : TypeId} (self : p type) : ∀ found ∈ hierarchy.ancestors type, p found := by
  intro found member
  rcases mem_line member with rfl | ⟨child, isParent⟩
  · exact self
  · exact parents child found isParent

theorem union_of (object : p .object) {left right : TypeId} (ofLeft : p left) (ofRight : p right) :
    p (hierarchy.union left right) := by
  unfold union
  split
  · exact ofRight
  · split
    · exact ofLeft
    · cases common : (hierarchy.ancestors right).find? (hierarchy.ancestors left).contains with
      | none => exact object
      | some found => exact ancestors_of parents ofRight found (List.mem_of_find?_eq_some common)

end

end Hierarchy

/-- A condition on the types that expressions have in every hierarchy. -/
structure TypeId.OfBuiltins (typed : TypeId → Prop) : Prop where
  error : typed .error
  object : typed .object
  int : typed .int
  string : typed .string
  bool : typed .bool

theorem TypeId.OfBuiltins.resultType {typed : TypeId → Prop} (builtins : OfBuiltins typed)
    (operator : Operator) : typed operator.resultType := by
  cases operator
  case add | sub | mul | div => exact builtins.int
  all_goals exact builtins.bool

namespace Hierarchy

/-- A condition on all types that an expression can have. -/
structure Gives (hierarchy : Hierarchy) (typed : TypeId → Prop) : Prop
    extends TypeId.OfBuiltins typed where
  written : ∀ name type, hierarchy.find? name = some type → type.isConcrete = true → typed type
  parent : ∀ child parent, hierarchy.parent? child = some parent → typed parent
  result : ∀ type name owner method receiver, type.isConcrete = true →
    hierarchy.method? type name = some (owner, method) → typed receiver →
      typed (method.result.type.resolveIn receiver)
  param : ∀ type name owner method, type.isConcrete = true →
    hierarchy.method? type name = some (owner, method) →
      ∀ param ∈ method.params, param.type.isConcrete = true → typed param.type

variable {hierarchy : Hierarchy} {typed : TypeId → Prop}

/-- The methods of a class come before those that it inherits. -/
theorem method?_self {type : TypeId} {name : String} {method : Method}
    (known : (hierarchy.info type).method? name = some method) :
    hierarchy.method? type name = some (type, method) := by
  have exists' : 0 < hierarchy.types.size := by
    by_contra nothing
    rw [info, Array.getElem?_eq_none (by omega)] at known
    cases known
  obtain ⟨size, isSize⟩ := Nat.exists_eq_succ_of_ne_zero (Nat.ne_of_gt exists')
  rw [method?, ancestors, isSize, line, List.findSome?_cons, known]
  rfl

namespace Gives

variable (gives : hierarchy.Gives typed)
include gives

theorem union {left right : TypeId} (ofLeft : typed left) (ofRight : typed right) :
    typed (hierarchy.union left right) :=
  union_of gives.parent gives.object ofLeft ofRight

/-- A class that a program names, as it is meant in another class. -/
theorem resolveIn {name : String} {type current : TypeId} (isClass : typed current)
    (found : hierarchy.find? name = some type) (concrete : (type.resolveIn current).isConcrete = true) :
    typed (type.resolveIn current) := by
  unfold TypeId.resolveIn at concrete ⊢
  split
  · exact isClass
  · rename_i notSelf
    rw [if_neg notSelf] at concrete
    exact gives.written name type found concrete

end Gives

end Hierarchy

end CoolLang
