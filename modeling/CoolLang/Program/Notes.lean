import CoolLang.Hierarchy.Classes
import CoolLang.Program.Basic

/-!
The notes in a program: one for each expression, wherever it stands. Typing and inference fill in the static
types on them and change nothing else of a program, which is the same without static types
(`Program.untyped`).
-/

namespace CoolLang

/-- Whether all notes have a static type, and none of these is yet to be inferred. -/
def Note.Resolved (notes : List Note) : Prop :=
  ∀ note ∈ notes, ∃ type, note.type = some type ∧ type ≠ TypeId.autoType

namespace Expr

mutual

/-- The notes of an expression and of all expressions inside it. -/
def notes : Expr → List Note
  | .assign note _ value => note :: notes value
  | .dispatch note receiver _ _ args => note :: (notesOption receiver ++ notesAll args)
  | .cond note test yes no => note :: (notes test ++ (notes yes ++ notes no))
  | .loop note test body => note :: (notes test ++ notes body)
  | .block note body => note :: notesAll body
  | .letIn note bindings body => note :: (notesBindings bindings ++ notes body)
  | .caseOf note scrutinee branches => note :: (notes scrutinee ++ notesBranches branches)
  | .isVoid note operand => note :: notes operand
  | .not note operand => note :: notes operand
  | .complement note operand => note :: notes operand
  | .binary note _ left right => note :: (notes left ++ notes right)
  | .new note _ => [note]
  | .identifier note _ => [note]
  | .integer note _ => [note]
  | .string note _ => [note]
  | .boolean note _ => [note]

def notesOption : Option Expr → List Note
  | none => []
  | some expr => notes expr

def notesAll : List Expr → List Note
  | [] => []
  | expr :: exprs => notes expr ++ notesAll exprs

def notesBindings : List (Binding Expr) → List Note
  | [] => []
  | ⟨_, _, init⟩ :: bindings => notesOption init ++ notesBindings bindings

def notesBranches : List (Branch Expr) → List Note
  | [] => []
  | ⟨_, _, body⟩ :: branches => notes body ++ notesBranches branches

end

end Expr

def Feature.notes : Feature → List Note
  | .attribute decl => Expr.notesOption decl.init
  | .method decl => decl.body.notes

def ClassDecl.notes (decl : ClassDecl) : List Note :=
  decl.features.flatMap Feature.notes

/-- The notes in all classes that have a type. -/
def Program.notes (program : Program) (types : ClassTypes) : List Note :=
  (program.typed types).flatMap fun typed => typed.1.notes

def Note.untyped (note : Note) : Note :=
  { note with type := none }

namespace Expr

mutual

/-- An expression with no static type on it or inside it. -/
def untyped : Expr → Expr
  | .assign note target value => .assign note.untyped target (untyped value)
  | .dispatch note receiver cast method args =>
      .dispatch note.untyped (untypedOption receiver) cast method (untypedAll args)
  | .cond note test yes no => .cond note.untyped (untyped test) (untyped yes) (untyped no)
  | .loop note test body => .loop note.untyped (untyped test) (untyped body)
  | .block note body => .block note.untyped (untypedAll body)
  | .letIn note bindings body => .letIn note.untyped (untypedBindings bindings) (untyped body)
  | .caseOf note scrutinee branches =>
      .caseOf note.untyped (untyped scrutinee) (untypedBranches branches)
  | .new note type => .new note.untyped type
  | .isVoid note operand => .isVoid note.untyped (untyped operand)
  | .not note operand => .not note.untyped (untyped operand)
  | .complement note operand => .complement note.untyped (untyped operand)
  | .binary note operator left right => .binary note.untyped operator (untyped left) (untyped right)
  | .identifier note name => .identifier note.untyped name
  | .integer note value => .integer note.untyped value
  | .string note value => .string note.untyped value
  | .boolean note value => .boolean note.untyped value

def untypedOption : Option Expr → Option Expr
  | none => none
  | some expr => some (untyped expr)

def untypedAll : List Expr → List Expr
  | [] => []
  | expr :: exprs => untyped expr :: untypedAll exprs

def untypedBindings : List (Binding Expr) → List (Binding Expr)
  | [] => []
  | ⟨name, type, init⟩ :: bindings => ⟨name, type, untypedOption init⟩ :: untypedBindings bindings

def untypedBranches : List (Branch Expr) → List (Branch Expr)
  | [] => []
  | ⟨name, type, body⟩ :: branches => ⟨name, type, untyped body⟩ :: untypedBranches branches

end

end Expr

def Feature.untyped : Feature → Feature
  | .attribute decl => .attribute { decl with init := Expr.untypedOption decl.init }
  | .method decl => .method { decl with body := decl.body.untyped }

def ClassDecl.untyped (decl : ClassDecl) : ClassDecl :=
  { decl with features := decl.features.map Feature.untyped }

def Program.untyped (program : Program) : Program :=
  ⟨program.classes.map ClassDecl.untyped⟩

end CoolLang
