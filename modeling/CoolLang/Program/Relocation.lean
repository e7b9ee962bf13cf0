import CoolLang.Program.Basic

/-!
Programs at other positions. `Program.relocate` sends every position in a tree through a function and
changes nothing else; two programs are the same up to their positions if they become equal when all of
them are sent to one place (`Program.SameShape`).
-/

namespace CoolLang

def Ident.relocate (move : Position → Position) (ident : Ident) : Ident :=
  { ident with position := move ident.position }

def Note.relocate (move : Position → Position) (note : Note) : Note :=
  { note with position := move note.position }

namespace Expr

mutual

def relocate (move : Position → Position) : Expr → Expr
  | .assign note target value =>
      .assign (note.relocate move) (target.relocate move) (relocate move value)
  | .dispatch note receiver cast method args =>
      .dispatch (note.relocate move) (relocateOption move receiver)
        (cast.map fun written => written.relocate move) (method.relocate move)
        (relocateAll move args)
  | .cond note test yes no =>
      .cond (note.relocate move) (relocate move test) (relocate move yes) (relocate move no)
  | .loop note test body => .loop (note.relocate move) (relocate move test) (relocate move body)
  | .block note body => .block (note.relocate move) (relocateAll move body)
  | .letIn note bindings body =>
      .letIn (note.relocate move) (relocateBindings move bindings) (relocate move body)
  | .caseOf note scrutinee branches =>
      .caseOf (note.relocate move) (relocate move scrutinee) (relocateBranches move branches)
  | .new note type => .new (note.relocate move) (type.relocate move)
  | .isVoid note operand => .isVoid (note.relocate move) (relocate move operand)
  | .not note operand => .not (note.relocate move) (relocate move operand)
  | .complement note operand => .complement (note.relocate move) (relocate move operand)
  | .binary note operator left right =>
      .binary (note.relocate move) operator (relocate move left) (relocate move right)
  | .identifier note name => .identifier (note.relocate move) name
  | .integer note value => .integer (note.relocate move) value
  | .string note value => .string (note.relocate move) value
  | .boolean note value => .boolean (note.relocate move) value

def relocateOption (move : Position → Position) : Option Expr → Option Expr
  | none => none
  | some expr => some (relocate move expr)

def relocateAll (move : Position → Position) : List Expr → List Expr
  | [] => []
  | expr :: exprs => relocate move expr :: relocateAll move exprs

def relocateBindings (move : Position → Position) : List (Binding Expr) → List (Binding Expr)
  | [] => []
  | ⟨name, type, init⟩ :: bindings =>
      ⟨name.relocate move, type.map fun written => written.relocate move,
        relocateOption move init⟩ :: relocateBindings move bindings

def relocateBranches (move : Position → Position) : List (Branch Expr) → List (Branch Expr)
  | [] => []
  | ⟨name, type, body⟩ :: branches =>
      ⟨name.relocate move, type.relocate move, relocate move body⟩ ::
        relocateBranches move branches

end

end Expr

def Feature.relocate (move : Position → Position) : Feature → Feature
  | .attribute decl => .attribute
      { name := decl.name.relocate move
        type := decl.type.relocate move
        init := decl.init.map fun init => init.relocate move }
  | .method decl => .method
      { name := decl.name.relocate move
        params := decl.params.map fun param =>
          ⟨param.name.relocate move, param.type.relocate move⟩
        result := decl.result.relocate move
        body := decl.body.relocate move }

def ClassDecl.relocate (move : Position → Position) (decl : ClassDecl) : ClassDecl where
  name := decl.name.relocate move
  parent := decl.parent.map fun written => written.relocate move
  features := decl.features.map fun feature => feature.relocate move
  position := move decl.position

namespace Program

def relocate (move : Position → Position) (program : Program) : Program :=
  ⟨program.classes.map fun decl => decl.relocate move⟩

/-- Whether two programs differ in positions at most. -/
def SameShape (left right : Program) : Prop :=
  left.relocate (fun _ => Position.first) = right.relocate (fun _ => Position.first)

end Program

end CoolLang
