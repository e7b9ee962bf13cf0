import CoolLang.Proofs.Analysis.Rest
import CoolLang.Proofs.Hierarchy.Introduction
import CoolLang.Proofs.Inference.Attributes
import CoolLang.Proofs.Typing.Verdict

/-!
What is known once inference has left nothing open. Where nothing is reported of the declarations of a program, all
declarations have classes (`Analysis.Closed.resolves`).
-/

namespace CoolLang

/-! ### Types of declarations -/

theorem TypeId.Valid.isClass {hierarchy : Hierarchy} {type : TypeId} (valid : type.Valid True hierarchy.types.size)
    (notSelf : type ≠ .selfType) (notAuto : type ≠ .autoType) : hierarchy.IsClass type := by
  refine ⟨?_, valid.known⟩
  simp only [isConcrete, Bool.and_eq_true, bne_iff_ne]
  exact ⟨⟨notSelf, notAuto⟩, valid.noError trivial⟩

theorem TypeId.Valid.isClass_resolveIn {hierarchy : Hierarchy} {type current : TypeId}
    (valid : type.Valid True hierarchy.types.size) (notAuto : type ≠ .autoType) (isClass : hierarchy.IsClass current) :
    hierarchy.IsClass (type.resolveIn current) := by
  unfold resolveIn
  split
  · exact isClass
  · exact valid.isClass ‹_› notAuto

namespace Variable

variable {before after : Variable} {hierarchy : Hierarchy}

/-- A declaration that has been left open gets a class, and any other one is kept. -/
theorem Frames.closes (frames : before.Frames after) (declared : before = .declared before.name before.type)
    (consistent : after.Consistent True) (placed : after.Placed hierarchy) :
    before.type = .autoType ∧ hierarchy.IsClass after.type ∨ before.type ≠ .autoType ∧ after = before := by
  by_cases isAuto : before.type = .autoType
  · have isOpen : after.auto = true := by
      rw [frames.auto, declared, isAuto]
      rfl
    have closed := consistent.closed
    rw [Variable.isOpen, isOpen] at closed
    exact Or.inl ⟨isAuto, placed.isClass (by simpa using closed)⟩
  · exact Or.inr ⟨isAuto, frames.eq_of_ne_autoType isAuto⟩

end Variable

namespace Analysis

open Inference

variable {program : Program} {left : Program × InferenceState} {owner : TypeId}

/-! ### Owners -/

theorem mem_types_of_attribute {attr : Attribute} (member : attr ∈ ((checked program).hierarchy.info owner).attributes) :
    some owner ∈ (checked program).types := by
  obtain ⟨collected, _⟩ := Hierarchy.collect_collected program
  rcases collected.build_cases (Hierarchy.collect_numbered program) owner with
    ⟨small, isInfo⟩ | ⟨class', isClass, _⟩ | isInfo
  · have all : ∀ type ∈ Hierarchy.initial.ids, (Hierarchy.initial.defineBuiltins.info type).attributes = [] := by decide
    rw [show ((checked program).hierarchy.info owner) = _ from isInfo, all owner (Hierarchy.mem_ids.mpr small)] at member
    cases member
  · exact Hierarchy.mem_types_of_mem_typed isClass
  · rw [show ((checked program).hierarchy.info owner) = _ from isInfo] at member
    cases member

theorem isConcrete_of_method {method : Method} (member : method ∈ ((checked program).hierarchy.info owner).methods) :
    owner.isConcrete = true := by
  obtain ⟨collected, _⟩ := Hierarchy.collect_collected program
  rcases collected.build_cases (Hierarchy.collect_numbered program) owner with
    ⟨small, isInfo⟩ | ⟨class', isClass, _⟩ | isInfo
  · have all : ∀ type ∈ Hierarchy.initial.ids, type.isConcrete = true ∨
        (Hierarchy.initial.defineBuiltins.info type).methods = [] := by decide
    rcases all owner (Hierarchy.mem_ids.mpr small) with concrete | none
    · exact concrete
    · rw [show ((checked program).hierarchy.info owner) = _ from isInfo, none] at member
      cases member
  · exact (checked_spec program).1 owner (Hierarchy.mem_types_of_mem_typed isClass)
  · rw [show ((checked program).hierarchy.info owner) = _ from isInfo] at member
    cases member

/-! ### Signatures -/

/-- What nothing is reported of is declared with types that are known. -/
theorem checked_valid (clean : declarationFaults program = []) : (checked program).hierarchy.Valid True := by
  obtain ⟨collected, _⟩ := Hierarchy.collect_collected program
  exact collected.build_valid fun _ => (List.append_eq_nil_iff.mp clean).2

theorem checked_declared {method : Method} (member : method ∈ ((checked program).hierarchy.info owner).methods) :
    ∀ info ∈ method.result :: method.params, info = .declared info.name info.type := by
  obtain ⟨collected, _⟩ := Hierarchy.collect_collected program
  exact collected.build_declared (Hierarchy.collect_numbered program) owner method member

/-- No class inherits from a primitive type. -/
theorem checked_sealed (program : Program) : (checked program).hierarchy.Sealed := by
  obtain ⟨collected, _⟩ := Hierarchy.collect_collected program
  intro child primitive member isParent
  have all : ∀ primitive ∈ primitives, primitive ∈ Hierarchy.childless := by decide
  exact collected.build_childless (Hierarchy.collect_numbered program) isParent (all primitive member)

namespace Closed

variable (closed : Closed program left)
include closed

theorem rooted : left.2.hierarchy.Rooted :=
  closed.standing.sound.alike.symm.rooted (checked_prepared program).rooted

theorem isClass_iff {type : TypeId} : left.2.hierarchy.IsClass type ↔ (checked program).hierarchy.IsClass type :=
  closed.standing.sound.alike.isClass

theorem placed {info : Variable} (placed : info.Placed (checked program).hierarchy) : info.Placed left.2.hierarchy :=
  ⟨closed.standing.sound.alike.size ▸ placed.known, placed.concrete⟩

/-- The declaration of which a signature is what inference has left. -/
theorem exists_method {method : Method} (member : method ∈ (left.2.hierarchy.info owner).methods) :
    ∃ before ∈ ((checked program).hierarchy.info owner).methods, before.Frames method ∧ method.Consistent True ∧
      method.Placed left.2.hierarchy := by
  obtain ⟨before, isBefore, frames⟩ := exists_of_mem_right (closed.frames.hierarchy.methods owner) member
  have isConcrete := isConcrete_of_method isBefore
  have placed := closed.standing.sound.method member
  exact ⟨before, isBefore, frames, (((closed.closed.hierarchy owner).methods method member).mono
    fun _ => ⟨trivial, isConcrete⟩), fun param isParam => closed.placed (placed.params param isParam),
    closed.placed placed.result⟩

/-- Where nothing is reported of declarations, each of them has a class. -/
theorem resolves (clean : declarationFaults program = []) : left.2.hierarchy.Resolves left.2.tree := by
  have alike := closed.standing.sound.alike
  have prepared := checked_prepared program
  have size : (checked program).hierarchy.types.size = left.2.hierarchy.types.size := alike.size.symm
  refine ⟨closed.rooted, ?_, fun owner method member param isParam => ?_,
    fun owner method member receiver isClass => ?_, fun id isOpen => ?_⟩
  · intro child primitive member isParent
    refine checked_sealed program child primitive member ?_
    rwa [Hierarchy.IsParent, alike.parent?] at isParent
  · obtain ⟨before, isBefore, frames, consistent, placed⟩ := closed.exists_method member
    obtain ⟨old, isOld, ofParam⟩ := exists_of_mem_right frames.params isParam
    have declared := checked_declared isBefore old (List.mem_cons_of_mem _ isOld)
    have valid := ((checked_valid clean owner).methods before isBefore).params old isOld
    rcases ofParam.closes declared (consistent.params param isParam) (placed.params param isParam) with
      ⟨_, isClass⟩ | ⟨written, rfl⟩
    · exact isClass
    · exact TypeId.Valid.isClass (size ▸ valid.1) valid.2 written
  · obtain ⟨before, isBefore, frames, consistent, placed⟩ := closed.exists_method member
    have declared := checked_declared isBefore before.result List.mem_cons_self
    have valid := ((checked_valid clean owner).methods before isBefore).result
    rcases frames.result.closes declared consistent.result placed.result with ⟨_, isClass'⟩ | ⟨written, same⟩
    · rwa [isClass'.resolveIn_self]
    · rw [same]
      exact TypeId.Valid.isClass_resolveIn (size ▸ valid) written isClass
  · have isClosed := (closed.closed.tree.variableAt id).closed
    rw [Variable.isOpen, isOpen] at isClosed
    have slot := closed.placed (closed.standing.sound.slot prepared.rooted.positive id)
    exact slot.isClass (by simpa using isClosed)

end Closed

end Analysis

end CoolLang
