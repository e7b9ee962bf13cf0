import CoolLang.Hierarchy.Classes
import CoolLang.Scope.Nest

/-!
The scopes that a program opens. A class has one, each feature has one inside it, a block has one, a
`let` has one inside the other for each binding and a `case` has one for each branch. All scopes of an
expression come in the order in which its operands are evaluated.
-/

namespace CoolLang

namespace Expr

mutual

def nests : Expr → List Nest
  | .integer .. => []
  | .string .. => []
  | .boolean .. => []
  | .identifier .. => []
  | .new .. => []
  | .assign _ _ value => nests value
  | .dispatch _ receiver _ _ args => nestsOption receiver ++ nestsAll args
  | .cond _ test yes no => nests test ++ (nests yes ++ nests no)
  | .loop _ test body => nests test ++ nests body
  | .block _ body => [.scope (nestsAll body)]
  | .letIn _ bindings body => nestsBindings (nests body) bindings
  | .caseOf _ scrutinee branches => nests scrutinee ++ nestsBranches branches
  | .isVoid _ operand => nests operand
  | .not _ operand => nests operand
  | .complement _ operand => nests operand
  | .binary _ _ left right => nests left ++ nests right

def nestsOption : Option Expr → List Nest
  | none => []
  | some expr => nests expr

def nestsAll : List Expr → List Nest
  | [] => []
  | expr :: exprs => nests expr ++ nestsAll exprs

/-- The scopes of bindings around a body that has the scopes `body`. -/
def nestsBindings (body : List Nest) : List (Binding Expr) → List Nest
  | [] => body
  | ⟨_, _, init⟩ :: bindings => nestsOption init ++ [.scope (nestsBindings body bindings)]

def nestsBranches : List (Branch Expr) → List Nest
  | [] => []
  | ⟨_, _, body⟩ :: branches => .scope (nests body) :: nestsBranches branches

end

end Expr

/-- The scopes inside the scope of a feature. -/
def Feature.nests : Feature → List Nest
  | .attribute decl => Expr.nestsOption decl.init
  | .method decl => decl.body.nests

/-- The scopes inside the scope of a class. -/
def ClassDecl.nests (decl : ClassDecl) : List Nest :=
  decl.features.map fun feature => .scope feature.nests

/-- The scopes of all classes that have a type. -/
def Program.nests (program : Program) (types : ClassTypes) : List Nest :=
  (program.typed types).map fun typed => .scope typed.1.nests

end CoolLang
