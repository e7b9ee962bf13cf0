import CoolLang.Proofs.Analysis.ScopeOrder
import CoolLang.Proofs.Typing.Independence

/-!
Verifying right after checking. A check declares each variable before any name can mean it, and it looks names up in a
tree that still grows; verifying looks them up in the whole tree. Both find what a survey of the program finds, which
looks into no tree at all (`Program.verify_check`).
-/

namespace CoolLang

namespace Program

variable {program : Program} {types : ClassTypes}

/-- Checking opens a scope below the root for each class that has a type. -/
theorem length_children_check (hierarchy : Hierarchy) : (types.filterMap id).length =
    ((program.check types hierarchy).2.1.children ScopeTree.root).length := by
  have opened := ScopeTree.openClasses_opened hierarchy types
  have children : (program.check types hierarchy).2.1.children ScopeTree.root =
      (ScopeTree.openClasses hierarchy types).1 :=
    (program.check_builds types hierarchy).root.trans opened.children
  rw [children, opened.numbered, List.length_range']

/-- Verifying finds what checking has found, and has no difference from the tree to tell. -/
theorem verify_check (fits : types.length = program.classes.length) (hierarchy : Hierarchy) :
    (program.check types hierarchy).1.verify types hierarchy (program.check types hierarchy).2.1 =
      ((program.check types hierarchy).1, (program.check types hierarchy).2.2, .ok ()) := by
  obtain ⟨untyped, outline, _⟩ := check_spec fits hierarchy
  obtain ⟨value, found, grounded, declared⟩ := program.check_surveyed types hierarchy
  rw [← nests_of_untyped untyped] at outline
  have alone : program.survey types hierarchy (some (program.check types hierarchy).2.1) =
      program.survey types hierarchy none :=
    survey_alone (length_children_check hierarchy) declared
  have classes : Inference.untypedClasses (program.check types hierarchy).1.classes types =
      Inference.untypedClasses program.classes types :=
    Typing.checkClasses_untyped hierarchy program.classes types _ _
  obtain ⟨sameValue, sameFound⟩ := survey_of_untyped hierarchy (some (program.check types hierarchy).2.1) classes
  obtain ⟨value', found'⟩ := verify_surveyed _ types hierarchy grounded outline
  obtain ⟨_, _, _, done⟩ := verify_spec hierarchy outline
  rw [sameValue, alone, ← value] at value'
  rw [sameFound, alone, ← found] at found'
  exact Prod.ext value' (Prod.ext found' done)

/-- Replaying a check reproduces it: for the class list that collecting leaves, with any classes dropped from it, and
for every hierarchy, verifying over the tree that checking has built finds the same diagnostics in the same order and
the same static types, and the tree has exactly the scopes that verifying opens. -/
theorem verify_replays_check (program : Program) (start hierarchy : Hierarchy)
    (listed : List.Forall₂ (fun type collected => type = collected ∨ type = none) types
      (start.collect program).2.1) :
    (program.check types hierarchy).1.verify types hierarchy (program.check types hierarchy).2.1 =
      ((program.check types hierarchy).1, (program.check types hierarchy).2.2, .ok ()) := by
  have fits : types.length = program.classes.length :=
    listed.length_eq.trans (Hierarchy.length_collect start program)
  exact verify_check fits hierarchy

/-- Two classes of one name, of which neither is checked, and one that inherits from them. -/
theorem verify_replays_check_redefined :
    (Hierarchy.initial.collect redefined).2.1 = [some ⟨8⟩, none, some ⟨9⟩] ∧
      (redefined.check [none, none, some ⟨9⟩] (Hierarchy.initial.collect redefined).1).2.2 ≠ [] ∧
      (redefined.check [none, none, some ⟨9⟩] (Hierarchy.initial.collect redefined).1).1.verify
          [none, none, some ⟨9⟩] (Hierarchy.initial.collect redefined).1
          (redefined.check [none, none, some ⟨9⟩] (Hierarchy.initial.collect redefined).1).2.1 =
        ((redefined.check [none, none, some ⟨9⟩] (Hierarchy.initial.collect redefined).1).1,
          (redefined.check [none, none, some ⟨9⟩] (Hierarchy.initial.collect redefined).1).2.2, .ok ()) := by
  have collected : (Hierarchy.initial.collect redefined).2.1 = [some ⟨8⟩, none, some ⟨9⟩] := by
    decide +kernel
  have listed : List.Forall₂ (fun type collected => type = collected ∨ type = none) [none, none, some ⟨9⟩]
      (Hierarchy.initial.collect redefined).2.1 := by
    rw [collected]
    exact .cons (Or.inr rfl) (.cons (Or.inr rfl) (.cons (Or.inl rfl) .nil))
  exact ⟨collected, by decide +kernel, verify_replays_check redefined .initial _ listed⟩

end Program

end CoolLang
