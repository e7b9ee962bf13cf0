import CoolLang.Analysis.Compile
import CoolLang.Program.Relocation

/-!
What is known about a program, carried over to other positions or to other type numbers. Signatures keep the
positions of their declarations, and diagnostics name positions; scopes and types have none. Names, positions
and scopes have nothing to do with type numbers, which also says what it means that two hierarchies know the
same of types of the same names.
-/

namespace CoolLang

/-! ### Other positions -/

section

variable (move : Position → Position)

def Diagnostic.relocate (diagnostic : Diagnostic) : Diagnostic :=
  { diagnostic with position := move diagnostic.position }

def Attribute.relocate (attr : Attribute) : Attribute :=
  { attr with position := move attr.position }

def Method.relocate (method : Method) : Method :=
  { method with position := move method.position }

def TypeInfo.relocate (info : TypeInfo) : TypeInfo :=
  { info with
    attributes := info.attributes.map (Attribute.relocate move)
    methods := info.methods.map (Method.relocate move) }

def Hierarchy.relocate (hierarchy : Hierarchy) : Hierarchy :=
  ⟨hierarchy.types.map (TypeInfo.relocate move)⟩

namespace Analysis

def relocate (analysis : Analysis) : Analysis where
  program := analysis.program.relocate move
  types := analysis.types
  hierarchy := analysis.hierarchy.relocate move
  tree := analysis.tree

/-- A diagnostic about a program at its other positions. That a program without a class `Main` needs one is said
about the first position of a text, wherever the tokens are. -/
def relocateReport (program : Program) (diagnostic : Diagnostic) : Diagnostic :=
  if diagnostic.problem = .missingMain ∧ ∀ decl ∈ program.classes, decl.name.name ≠ "Main" then
    { diagnostic with position := .first }
  else diagnostic.relocate move

end Analysis

/-- Whether other tokens stand where a renaming of positions takes tokens to. It keeps positions apart, and what
no text contains stays where it is. -/
structure Relayout (move : Position → Position) (tokens others : List Token) : Prop where
  apart : ∀ one two, move one = move two → one = two
  builtin : move .builtin = .builtin
  moved : others.map Token.position = (tokens.map Token.position).map move

end

/-! ### Other type numbers -/

section

/-- Whether a renaming of types keeps them apart, and leaves those that are built in. -/
structure TypeId.Renumbers (rename : TypeId → TypeId) : Prop where
  injective : ∀ left right, rename left = rename right → left = right
  builtin : ∀ type : TypeId, type.index < 8 → rename type = type

variable (rename : TypeId → TypeId)

def Variable.retype (info : Variable) : Variable :=
  { info with type := rename info.type }

def Attribute.retype (attr : Attribute) : Attribute :=
  { attr with type := rename attr.type }

def Method.retype (method : Method) : Method :=
  { method with params := method.params.map (Variable.retype rename), result := method.result.retype rename }

def TypeInfo.retype (info : TypeInfo) : TypeInfo :=
  { info with
    parent := info.parent.map rename
    attributes := info.attributes.map (Attribute.retype rename)
    methods := info.methods.map (Method.retype rename) }

/-- Whether two hierarchies have types of the same names, and the same is known of those of one name. What is built
in has the same number in both. -/
structure Hierarchy.Renames (one two : Hierarchy) : Prop extends TypeId.Renumbers rename where
  size : two.types.size = one.types.size
  known : ∀ type, (rename type).index < two.types.size ↔ type.index < one.types.size
  find? : ∀ name, two.find? name = (one.find? name).map rename
  info : ∀ type, two.info (rename type) = (one.info type).retype rename

def Note.retype (note : Note) : Note :=
  { note with type := note.type.map rename }

namespace Expr

mutual

def retype : Expr → Expr
  | .assign note target value => .assign (note.retype rename) target (retype value)
  | .dispatch note receiver cast method args =>
      .dispatch (note.retype rename) (retypeOption receiver) cast method (retypeAll args)
  | .cond note test yes no => .cond (note.retype rename) (retype test) (retype yes) (retype no)
  | .loop note test body => .loop (note.retype rename) (retype test) (retype body)
  | .block note body => .block (note.retype rename) (retypeAll body)
  | .letIn note bindings body => .letIn (note.retype rename) (retypeBindings bindings) (retype body)
  | .caseOf note scrutinee branches => .caseOf (note.retype rename) (retype scrutinee) (retypeBranches branches)
  | .new note type => .new (note.retype rename) type
  | .isVoid note operand => .isVoid (note.retype rename) (retype operand)
  | .not note operand => .not (note.retype rename) (retype operand)
  | .complement note operand => .complement (note.retype rename) (retype operand)
  | .binary note operator left right => .binary (note.retype rename) operator (retype left) (retype right)
  | .identifier note name => .identifier (note.retype rename) name
  | .integer note value => .integer (note.retype rename) value
  | .string note value => .string (note.retype rename) value
  | .boolean note value => .boolean (note.retype rename) value

def retypeOption : Option Expr → Option Expr
  | none => none
  | some expr => some (retype expr)

def retypeAll : List Expr → List Expr
  | [] => []
  | expr :: exprs => retype expr :: retypeAll exprs

def retypeBindings : List (Binding Expr) → List (Binding Expr)
  | [] => []
  | ⟨name, type, init⟩ :: bindings => ⟨name, type, retypeOption init⟩ :: retypeBindings bindings

def retypeBranches : List (Branch Expr) → List (Branch Expr)
  | [] => []
  | ⟨name, type, body⟩ :: branches => ⟨name, type, retype body⟩ :: retypeBranches branches

end

end Expr

def AttributeDecl.retype (decl : AttributeDecl) : AttributeDecl :=
  { decl with init := decl.init.map (Expr.retype rename) }

def MethodDecl.retype (decl : MethodDecl) : MethodDecl :=
  { decl with body := decl.body.retype rename }

def Feature.retype : Feature → Feature
  | .attribute decl => .attribute (decl.retype rename)
  | .method decl => .method (decl.retype rename)

def ClassDecl.retype (decl : ClassDecl) : ClassDecl :=
  { decl with features := decl.features.map (Feature.retype rename) }

/-- A class with its type under another number. No pass looks into a class that has no type. -/
def ClassDecl.retypeWith : ClassDecl × Option TypeId → ClassDecl × Option TypeId
  | (decl, none) => (decl, none)
  | (decl, some type) => (decl.retype rename, some (rename type))

/-- Whether a class declares a parent, by their names. -/
def Program.DeclaresParent (program : Program) (child parent : String) : Prop :=
  ∃ decl ∈ program.classes, decl.name.name = child ∧ decl.parent.map Ident.name = some parent

end

end CoolLang
