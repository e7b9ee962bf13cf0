import CoolLang.Program.Nesting
import CoolLang.Program.Notes
import Mathlib.Data.List.Basic

/-!
What all static types of a program are, part by part, and what does not depend on them: programs that differ
in static types only open the same scopes (`Program.nests_of_untyped`).
-/

namespace CoolLang

/-- Whether all notes have a static type, and each of these satisfies a condition. -/
def Note.AllTyped (typed : TypeId → Prop) (notes : List Note) : Prop :=
  ∀ note ∈ notes, ∃ type, note.type = some type ∧ typed type

namespace Note.AllTyped

variable {typed : TypeId → Prop} {note : Note} {notes front back : List Note}

theorem nil : AllTyped typed [] :=
  List.forall_mem_nil _

theorem cons (first : AllTyped typed [note]) (later : AllTyped typed notes) :
    AllTyped typed (note :: notes) :=
  List.forall_mem_cons.mpr ⟨first note List.mem_cons_self, later⟩

theorem cons_typed {type : TypeId} (known : typed type) (later : AllTyped typed notes) :
    AllTyped typed (note.typed type :: notes) :=
  List.forall_mem_cons.mpr ⟨⟨type, rfl, known⟩, later⟩

theorem append (one : AllTyped typed front) (two : AllTyped typed back) :
    AllTyped typed (front ++ back) :=
  List.forall_mem_append.mpr ⟨one, two⟩

end Note.AllTyped

namespace Expr

mutual

@[simp]
theorem nests_untyped : (expr : Expr) → expr.untyped.nests = expr.nests
  | .integer .. | .string .. | .boolean .. | .identifier .. | .new .. => by rw [untyped, nests, nests]
  | .assign _ _ value => by rw [untyped, nests, nests, nests_untyped value]
  | .dispatch _ receiver _ _ args => by
      rw [untyped, nests, nests, nestsOption_untyped receiver, nestsAll_untyped args]
  | .cond _ test yes no => by
      rw [untyped, nests, nests, nests_untyped test, nests_untyped yes, nests_untyped no]
  | .loop _ test body => by rw [untyped, nests, nests, nests_untyped test, nests_untyped body]
  | .block _ body => by rw [untyped, nests, nests, nestsAll_untyped body]
  | .letIn _ bindings body => by
      rw [untyped, nests, nests, nests_untyped body, nestsBindings_untyped bindings]
  | .caseOf _ scrutinee branches => by
      rw [untyped, nests, nests, nests_untyped scrutinee, nestsBranches_untyped branches]
  | .isVoid _ operand | .not _ operand | .complement _ operand => by
      rw [untyped, nests, nests, nests_untyped operand]
  | .binary _ _ left right => by rw [untyped, nests, nests, nests_untyped left, nests_untyped right]

@[simp]
theorem nestsOption_untyped : (expr : Option Expr) →
    nestsOption (untypedOption expr) = nestsOption expr
  | none => rfl
  | some expr => by rw [untypedOption, nestsOption, nestsOption, nests_untyped expr]

@[simp]
theorem nestsAll_untyped : (exprs : List Expr) → nestsAll (untypedAll exprs) = nestsAll exprs
  | [] => rfl
  | expr :: exprs => by
      rw [untypedAll, nestsAll, nestsAll, nests_untyped expr, nestsAll_untyped exprs]

@[simp]
theorem nestsBindings_untyped {body : List Nest} : (bindings : List (Binding Expr)) →
    nestsBindings body (untypedBindings bindings) = nestsBindings body bindings
  | [] => rfl
  | ⟨_, _, init⟩ :: bindings => by
      rw [untypedBindings, nestsBindings, nestsBindings, nestsOption_untyped init,
        nestsBindings_untyped bindings]

@[simp]
theorem nestsBranches_untyped : (branches : List (Branch Expr)) →
    nestsBranches (untypedBranches branches) = nestsBranches branches
  | [] => rfl
  | ⟨_, _, body⟩ :: branches => by
      rw [untypedBranches, nestsBranches, nestsBranches, nests_untyped body,
        nestsBranches_untyped branches]

end

end Expr

theorem Feature.nests_untyped (feature : Feature) : feature.untyped.nests = feature.nests := by
  cases feature <;> simp [Feature.untyped, Feature.nests]

theorem ClassDecl.nests_untyped (decl : ClassDecl) : decl.untyped.nests = decl.nests := by
  simp [ClassDecl.untyped, ClassDecl.nests, Function.comp_def, Feature.nests_untyped]

theorem Program.nests_untyped (program : Program) (types : ClassTypes) :
    program.untyped.nests types = program.nests types := by
  obtain ⟨decls⟩ := program
  unfold untyped
  dsimp only
  induction decls generalizing types with
  | nil => rfl
  | cons decl decls ih =>
      rcases types with _ | ⟨_ | type, types⟩
      · rfl
      · exact ih types
      · have first := decl.nests_untyped
        rw [show nests ⟨(decl :: decls).map ClassDecl.untyped⟩ (some type :: types) =
          .scope decl.untyped.nests :: nests ⟨decls.map ClassDecl.untyped⟩ types from rfl, ih, first]
        rfl

theorem Program.nests_of_untyped {one two : Program} (same : one.untyped = two.untyped)
    (types : ClassTypes) : one.nests types = two.nests types := by
  rw [← one.nests_untyped, same, two.nests_untyped]

end CoolLang
