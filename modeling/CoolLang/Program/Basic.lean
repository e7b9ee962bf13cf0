import CoolLang.Hierarchy.TypeId
import CoolLang.Source.Position

/-!
Programs as trees. Every expression carries a note with its position and, once it has been typed, its
static type.
-/

namespace CoolLang

/-- A name with the position where it is written. -/
structure Ident where
  name : String
  position : Position
deriving DecidableEq, Inhabited

inductive Operator where
  | add
  | sub
  | mul
  | div
  | less
  | lessEqual
  | equal
deriving DecidableEq

namespace Operator

def isArithmetic : Operator → Bool
  | add | sub | mul | div => true
  | less | lessEqual | equal => false

/-- The type of what an operator yields. -/
def resultType (operator : Operator) : TypeId :=
  if operator.isArithmetic then .int else .bool

def text : Operator → String
  | add => "+"
  | sub => "-"
  | mul => "*"
  | div => "/"
  | less => "<"
  | lessEqual => "<="
  | equal => "="

end Operator

/-- Where an expression begins, and its static type if it has one yet. -/
structure Note where
  position : Position
  type : Option TypeId
deriving DecidableEq, Inhabited

/-- The note of an expression whose static type has been found. -/
def Note.typed (note : Note) (type : TypeId) : Note :=
  { note with type := some type }

/-- A binding of a `let` expression; a type that is left out is to be inferred. -/
structure Binding (ε : Type) where
  name : Ident
  type : Option Ident
  init : Option ε

structure Branch (ε : Type) where
  name : Ident
  type : Ident
  body : ε

inductive Expr where
  | assign (note : Note) (target : Ident) (value : Expr)
  /-- `method(args)`, `receiver.method(args)` or `receiver@cast.method(args)`. -/
  | dispatch (note : Note) (receiver : Option Expr) (cast : Option Ident) (method : Ident)
      (args : List Expr)
  | cond (note : Note) (test yes no : Expr)
  | loop (note : Note) (test body : Expr)
  | block (note : Note) (body : List Expr)
  | letIn (note : Note) (bindings : List (Binding Expr)) (body : Expr)
  | caseOf (note : Note) (scrutinee : Expr) (branches : List (Branch Expr))
  | new (note : Note) (type : Ident)
  | isVoid (note : Note) (operand : Expr)
  | not (note : Note) (operand : Expr)
  | complement (note : Note) (operand : Expr)
  | binary (note : Note) (operator : Operator) (left right : Expr)
  | identifier (note : Note) (name : String)
  | integer (note : Note) (value : Int)
  | string (note : Note) (value : String)
  | boolean (note : Note) (value : Bool)
deriving Inhabited

namespace Expr

def note : Expr → Note
  | assign note .. | dispatch note .. | cond note .. | loop note .. | block note .. | letIn note ..
  | caseOf note .. | new note .. | isVoid note .. | not note .. | complement note ..
  | binary note .. | identifier note .. | integer note .. | string note .. | boolean note .. => note

def position (expr : Expr) : Position :=
  expr.note.position

/-- The static type, if the expression has been typed. -/
def type? (expr : Expr) : Option TypeId :=
  expr.note.type

end Expr

structure AttributeDecl where
  name : Ident
  type : Ident
  init : Option Expr

structure Param where
  name : Ident
  type : Ident

structure MethodDecl where
  name : Ident
  params : List Param
  result : Ident
  body : Expr

inductive Feature where
  | attribute (decl : AttributeDecl)
  | method (decl : MethodDecl)

structure ClassDecl where
  name : Ident
  parent : Option Ident
  features : List Feature
  position : Position

structure Program where
  classes : List ClassDecl

end CoolLang
