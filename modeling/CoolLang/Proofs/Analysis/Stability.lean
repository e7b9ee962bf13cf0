import CoolLang.Proofs.Analysis.ScopeOrder
import CoolLang.Proofs.Inference.Fixpoint

/-!
When the first phase of inference is over. It stops at a walk that learns nothing, but the static types
that this walk has left can still be hints for the next one. If the next one learns nothing either,
nothing is left to learn (`Analysis.observed_fixed_iff`).
-/

namespace CoolLang

namespace Inference

/-- What repeated walks leave was left by one walk, from where there is what all walks keep. -/
theorem exists_last_walk {types : ClassTypes} {p : Program × InferenceState → Prop}
    (keeps : ∀ left, p left → p (nextWalk types left)) (more : Nat) (program : Program)
    {state : InferenceState} (holds : p (program, state)) :
    ∃ before : Program × InferenceState, p before ∧ nextWalk types before =
      ((walkUntilStable types more program state).1.1, (walkUntilStable types more program state).2) := by
  induction more generalizing program state with
  | zero => exact ⟨(program, state), holds, rfl⟩
  | succ more ih =>
      rw [walkUntilStable_succ]
      dsimp only
      split
      · exact ih _ (keeps _ holds)
      · exact ⟨(program, state), holds, rfl⟩

end Inference

namespace Analysis

open Inference

/-- What is known about a checked program after the first phase of inference. -/
def observed (limit : Nat) (analysis : Analysis) : Program × InferenceState :=
  let repeated := walkUntilStable analysis.types (limit - 1) analysis.program
    ⟨analysis.hierarchy, analysis.tree, .initial, false, none⟩
  (repeated.1.1, repeated.2)

theorem drift_observed (program : Program) (limit : Nat) :
    ((checked program).observed limit).2.drift = none ∧
      (nextWalk (checked program).types ((checked program).observed limit)).2.drift = none := by
  have isOutline := checked_outline program
  obtain ⟨same, noDrift, nodes⟩ := walkUntilStable_spec
    ⟨(checked program).hierarchy, (checked program).tree, .initial, false, none⟩ (limit - 1) rfl isOutline
    rfl
  refine ⟨noDrift, (walk_spec ((ScopeTree.skeleton_of_nodes nodes).trans ?_) noDrift).2.1⟩
  exact isOutline.trans (by rw [← Program.nests_of_untyped same]; rfl)

/-- If the first phase stops because a walk has learned nothing, then this walk has found out static types
at most, and all walks after it leave everything as it is if and only if the next one learns nothing
either. -/
theorem observed_fixed_iff (program : Program) (limit : Nat)
    (stopped : ((checked program).observed limit).2.changed = false) :
    let types := (checked program).types
    let left := (checked program).observed limit
    (∃ before : Program × InferenceState, nextWalk types before = left ∧
      left.2.hierarchy = before.2.hierarchy ∧ left.2.tree = before.2.tree) ∧
    ((nextWalk types left).2.changed = false ↔ ∀ count, (nextWalk types)^[count] left = left) := by
  obtain ⟨noDrift, noDrift'⟩ := drift_observed program limit
  obtain ⟨before, _, last⟩ := exists_last_walk (p := fun _ => True) (fun _ _ => trivial) (limit - 1)
    (checked program).program trivial
  intro types left
  have isLast : walk types before.1 before.2 = left := last
  have quiet : Quiet (walk types before.1 before.2).2 := isLast ▸ ⟨stopped, noDrift⟩
  refine ⟨⟨before, last, ?_⟩, fun unchanged count => ?_, fun fixed => ?_⟩
  · rw [← isLast]
    exact (walk_quiet quiet).2
  · have isFixed := isFixedPt_of_quiet quiet (isLast ▸ ⟨unchanged, noDrift'⟩)
    rw [isLast] at isFixed
    exact isFixed.iterate count
  · rw [show nextWalk types left = left from fixed 1]
    exact stopped

section

private def word (name : String) (column : Nat) : Ident :=
  ⟨name, ⟨1, column⟩⟩

private def plain (column : Nat) : Note :=
  ⟨⟨1, column⟩, none⟩

/-- A comparison of two open variables, the second of which learns only afterwards. -/
def comparing : Program where
  classes := [⟨word "Main" 7, none, [.method ⟨word "main" 14, [], word "Object" 22,
    .letIn (plain 31) [⟨word "x" 35, none, none⟩, ⟨word "y" 38, none, none⟩]
      (.block (plain 43) [
        .binary (plain 45) .equal (.identifier (plain 45) "x") (.identifier (plain 49) "y"),
        .assign (plain 52) (word "y" 52) (.integer (plain 57) 5)])⟩], ⟨1, 1⟩⟩]

theorem observed_fixed_iff_comparing :
    ((checked comparing).observed 32).2.changed = false ∧
      (∃ before : Program × InferenceState,
        nextWalk (checked comparing).types before = (checked comparing).observed 32 ∧
        ((checked comparing).observed 32).2.hierarchy = before.2.hierarchy ∧
        ((checked comparing).observed 32).2.tree = before.2.tree) ∧
      ¬ ∀ count, (nextWalk (checked comparing).types)^[count] ((checked comparing).observed 32) =
        (checked comparing).observed 32 := by
  have stopped : ((checked comparing).observed 32).2.changed = false := by decide +kernel
  obtain ⟨before, fixed⟩ := observed_fixed_iff comparing 32 stopped
  have learns :
      (nextWalk (checked comparing).types ((checked comparing).observed 32)).2.changed = true := by
    decide +kernel
  refine ⟨stopped, before, fun all => ?_⟩
  rw [fixed.mpr all] at learns
  cases learns

/-- Inference gives the first variable the type `Object`, and then the comparison is wrong. The walk after
the last one of the first phase would have found that it is an `Int`. -/
theorem comparing_settled_early :
    let left := (checked comparing).observed 32
    let next := nextWalk (checked comparing).types left
    let inferred := ((checked comparing).infer 32).1
    left.2.changed = false ∧ (left.2.tree.variableAt 1).isOpen = true ∧
      next.2.changed = true ∧ (next.2.tree.variableAt 1).type = .int ∧
      (inferred.tree.variableAt 1).type = .object ∧
      inferred.verify.1.2 = [⟨⟨1, 45⟩, .invalidOperation "Object" "Int"⟩] := by
  decide +kernel

end

end Analysis

end CoolLang
