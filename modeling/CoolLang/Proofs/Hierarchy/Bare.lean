import CoolLang.Proofs.Hierarchy.Consistency
import CoolLang.Proofs.Hierarchy.Rooted

/-!
Hierarchies without features. Names, parents, ancestors, conformance and unions do not depend on
attributes and methods, so hierarchies that are the same without these agree on all of that
(`Hierarchy.Alike`).
-/

namespace CoolLang

/-- A type without its features. -/
def TypeInfo.bare (info : TypeInfo) : TypeInfo :=
  { info with attributes := [], methods := [] }

namespace Hierarchy

def bare (hierarchy : Hierarchy) : Hierarchy :=
  ⟨hierarchy.types.map TypeInfo.bare⟩

/-- Whether two hierarchies differ in features only. -/
def Alike (one two : Hierarchy) : Prop :=
  one.bare = two.bare

variable {hierarchy one two three : Hierarchy} {type owner : TypeId}

theorem info_bare (hierarchy : Hierarchy) (type : TypeId) :
    hierarchy.bare.info type = (hierarchy.info type).bare := by
  unfold info bare
  rw [Array.getElem?_map]
  cases hierarchy.types[type.index]? <;> rfl

namespace Alike

theorem refl (hierarchy : Hierarchy) : hierarchy.Alike hierarchy :=
  rfl

theorem symm (alike : one.Alike two) : two.Alike one :=
  Eq.symm alike

theorem trans (first : one.Alike two) (second : two.Alike three) : one.Alike three :=
  Eq.trans first second

theorem update {change : TypeInfo → TypeInfo} (hierarchy : Hierarchy) (owner : TypeId)
    (keeps : ∀ info, (change info).bare = info.bare) : (hierarchy.update owner change).Alike hierarchy := by
  unfold Alike bare Hierarchy.update
  congr 1
  apply Array.ext_getElem?
  intro place
  rw [Array.getElem?_map, Array.getElem?_modify, Array.getElem?_map]
  split
  · cases hierarchy.types[place]? with
    | none => rfl
    | some info => exact congrArg some (keeps info)
  · rfl

variable (alike : one.Alike two)
include alike

theorem size : one.types.size = two.types.size := by
  have same := congrArg (fun hierarchy => hierarchy.types.size) alike
  simpa only [bare, Array.size_map] using same

theorem info_bare (type : TypeId) : (one.info type).bare = (two.info type).bare := by
  rw [← Hierarchy.info_bare, ← Hierarchy.info_bare, show one.bare = two.bare from alike]

theorem parent? (type : TypeId) : one.parent? type = two.parent? type :=
  have same := congrArg TypeInfo.parent (alike.info_bare type)
  same

theorem name (type : TypeId) : one.name type = two.name type :=
  have same := congrArg TypeInfo.name (alike.info_bare type)
  same

theorem isSealed (type : TypeId) : (one.info type).isSealed = (two.info type).isSealed :=
  have same := congrArg TypeInfo.isSealed (alike.info_bare type)
  same

theorem isClass : one.IsClass type ↔ two.IsClass type :=
  ⟨fun isClass => ⟨isClass.concrete, alike.size ▸ isClass.known⟩,
    fun isClass => ⟨isClass.concrete, alike.size.symm ▸ isClass.known⟩⟩

theorem line (count : Nat) (start : Option TypeId) : one.line count start = two.line count start := by
  induction count generalizing start with
  | zero => rfl
  | succ count ih =>
      cases start with
      | none => rfl
      | some type => rw [Hierarchy.line, Hierarchy.line, ih, alike.parent?]

theorem ancestors : one.ancestors = two.ancestors := by
  funext type
  rw [Hierarchy.ancestors, alike.size, alike.line, Hierarchy.ancestors]

theorem conforms : one.conforms = two.conforms := by
  funext type expected
  rw [Hierarchy.conforms, alike.ancestors, Hierarchy.conforms]

theorem union : one.union = two.union := by
  funext left right
  rw [Hierarchy.union, alike.ancestors, Hierarchy.union]

theorem height : one.height = two.height := by
  funext type
  rw [Hierarchy.height, alike.ancestors, Hierarchy.height]

theorem find? : one.find? = two.find? := by
  funext written
  simp only [Hierarchy.find?, ids, alike.size, alike.name]

theorem get : one.get = two.get := by
  funext written
  rw [Hierarchy.get, alike.find?, Hierarchy.get]

theorem rooted (rooted : one.Rooted) : two.Rooted where
  builtins := alike.size ▸ rooted.builtins
  top := alike.parent? _ ▸ rooted.top
  parents child parent isParent :=
    alike.isClass.mp (rooted.parents child parent ((alike.parent? child).trans isParent))
  reaches type isClass := alike.ancestors ▸ rooted.reaches type (alike.isClass.mpr isClass)

end Alike

end Hierarchy

end CoolLang
