import CoolLang.Proofs.Analysis.Resolution
import CoolLang.Proofs.Hierarchy.Distinct
import CoolLang.Proofs.Typing.Building

/-!
What is known once a program has been checked. The hierarchy leads up to `Object`, all types in it and in
the scope tree are known, and the classes of the program are told apart by their numbers
(`Analysis.checked_prepared`).
-/

namespace CoolLang

namespace Analysis

/-- What the passes after checking can rely on, whatever is wrong with the program. -/
structure Prepared (analysis : Analysis) : Prop where
  rooted : analysis.hierarchy.Rooted
  valid : analysis.hierarchy.Valid False
  known : analysis.tree.Known analysis.hierarchy.types.size
  notes : Note.AllTyped (TypeId.Absolute analysis.hierarchy.types.size)
    (analysis.program.notes analysis.types)
  areClasses : ∀ type, some type ∈ analysis.types → analysis.hierarchy.IsClass type
  distinct : (analysis.types.filterMap id).Nodup
  features : analysis.hierarchy.Distinct
  consistent : analysis.hierarchy.Consistent False ∧ analysis.tree.Consistent False
  outline : analysis.tree.skeleton = Nest.outline (analysis.program.nests analysis.types)
  /-- Every class has a scope at the root. -/
  numbered : (analysis.types.filterMap id).length = (analysis.tree.children ScopeTree.root).length

end Analysis

/-- Typing over a valid hierarchy leaves types that are known. -/
theorem Program.check_known {program : Program} {types : ClassTypes} {hierarchy : Hierarchy}
    (rooted : hierarchy.Rooted) (valid : hierarchy.Valid False)
    (areClasses : ∀ type, some type ∈ types → hierarchy.IsClass type) :
    Note.AllTyped (TypeId.Absolute hierarchy.types.size)
        ((program.check types hierarchy).1.notes types) ∧
      (program.check types hierarchy).2.1.Known hierarchy.types.size := by
  have opened := ScopeTree.openClasses_opened hierarchy types
  have start : (ScopeTree.openClasses hierarchy types).2.Known hierarchy.types.size := by
    refine ⟨fun info member => ?_, opened.wellFormed.locals⟩
    obtain ⟨type, _, attr, isAttr, rfl⟩ := opened.vars info member
    exact ((valid type).attributes attr isAttr).known
  obtain ⟨⟨_, known⟩, notes⟩ := (Typing.builds rooted valid).typed_checkClasses program.classes types
    (ScopeTree.openClasses hierarchy types).1 (by rw [opened.numbered, List.length_range'])
    (fun type member => (areClasses type member).absolute) []
    ⟨(ScopeTree.openClasses hierarchy types).2, none, none, #[]⟩ ⟨rfl, start⟩
  exact ⟨notes, known⟩

namespace Analysis

theorem checked_prepared (program : Program) : (checked program).Prepared := by
  obtain ⟨collected, numbered⟩ := Hierarchy.collect_collected program
  obtain ⟨areConcrete, hierarchy, tree⟩ := checked_spec program
  have rooted : (checked program).hierarchy.Rooted := collected.build_rooted
    ((Hierarchy.map_snd_typed (Hierarchy.length_collect .initial program)).trans numbered)
  have valid : (checked program).hierarchy.Valid False := collected.build_valid nofun
  have size : (checked program).hierarchy.types.size =
      (Hierarchy.initial.collect program).1.types.size := Hierarchy.size_build ..
  have areClasses : ∀ type, some type ∈ (checked program).types →
      (checked program).hierarchy.IsClass type := by
    intro type member
    refine ⟨areConcrete type member, ?_⟩
    have listed : type ∈ (Hierarchy.initial.collect program).2.1.filterMap id :=
      List.mem_filterMap.mpr ⟨some type, member, rfl⟩
    rw [numbered] at listed
    obtain ⟨index, inRange, rfl⟩ := List.mem_map.mp listed
    have builtins := collected.builtins
    rw [List.mem_range'_1] at inRange
    rw [size]
    dsimp only
    omega
  obtain ⟨notes, known⟩ := Program.check_known rooted valid areClasses
  have outline := checked_outline program
  refine ⟨rooted, valid, known, notes, areClasses, ?_, collected.build_distinct, ⟨hierarchy, tree⟩, outline, ?_⟩
  · change ((Hierarchy.initial.collect program).2.1.filterMap id).Nodup
    rw [numbered]
    exact List.Nodup.map (fun _ _ same => congrArg TypeId.index same) List.nodup_range'
  · have fits := (Nest.outline_at ((checked program).program.nests (checked program).types)).1
    rw [← outline, Nest.at_skeleton, Nest.At] at fits
    obtain ⟨same, _, _⟩ := Program.check_spec (Hierarchy.length_collect .initial program)
      ((Hierarchy.initial.collect program).1.build program (Hierarchy.initial.collect program).2.1).1
    exact (Program.length_nests (Hierarchy.length_collect .initial program)).symm.trans
      ((congrArg List.length (Program.nests_of_untyped same _).symm).trans fits.length_eq)

end Analysis

end CoolLang
