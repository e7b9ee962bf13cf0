import CoolLang.Analysis.Basic
import CoolLang.Typing.Survey

/-!
The names that a program uses, and what binds them. The syntax tells for each use which declarations are in force where
the name stands, innermost first: the bindings of `let` that come before it, branches of `case`, `self` and the
parameters of the method. A name that none of these binds means an attribute of the class around it, and that is bound
where it is declared, also if the class inherits it (`Analysis.binder?`).
-/

namespace CoolLang

/-- What binds a name: the local of a place in a scope. -/
structure Binder where
  name : String
  scope : ScopeId
  place : Nat
deriving DecidableEq

/-- The binders of the names that a scope declares, in this order. -/
def Binder.inScope (scope : ScopeId) (names : List String) : List Binder :=
  names.zipIdx.map fun (name, place) => ⟨name, scope, place⟩

namespace ScopeTree

variable (tree : ScopeTree)

/-- The variable that a binder binds its name to. -/
def bound? (binder : Binder) : Option VariableId :=
  (tree.locals binder.scope)[binder.place]?

/-- The scope of the features of a class. -/
def classScope (types : ClassTypes) (type : TypeId) : ScopeId :=
  tree.child root ((types.filterMap id).idxOf type)

end ScopeTree

/-- Where a name stands. -/
structure Vantage where
  /-- The class around it. -/
  current : TypeId
  /-- The name of the feature around it. -/
  feature : String
  scope : ScopeId
  /-- What is in force there of what the feature declares, innermost first. -/
  binders : List Binder

inductive Usage where
  /-- The value of the variable, in an expression of that static type. -/
  | read (type : Option TypeId)
  /-- An assignment of a value of that static type, which begins at that position. -/
  | write (type : Option TypeId) (position : Position)
deriving DecidableEq

structure Use extends Vantage where
  name : String
  position : Position
  usage : Usage

/-- What is reported of a use of a name that nothing binds. -/
def Use.unknown (use : Use) : Diagnostic :=
  ⟨use.position, .unknownVariable use.name use.feature⟩

namespace Vantage

variable (tree : ScopeTree)

/-- In the scope at a place, which declares these names. -/
def inside (vantage : Vantage) (place : Nat) (names : List String) : Vantage :=
  { vantage with
    scope := tree.child vantage.scope place
    binders := Binder.inScope (tree.child vantage.scope place) names ++ vantage.binders }

mutual

/-- The names that an expression uses, whose scopes begin at a place among the children of its own scope. They come in
the order in which the expression is typed. -/
def uses (vantage : Vantage) (place : Nat) : Expr → List Use
  | .integer .. | .string .. | .boolean .. | .new .. => []
  | .identifier note name => [⟨vantage, name, note.position, .read note.type⟩]
  | .assign _ target value =>
      uses vantage place value ++
        if target.name = "self" then []
        else [⟨vantage, target.name, target.position, .write value.type? value.position⟩]
  | .dispatch _ receiver _ _ args =>
      usesOption vantage place receiver ++ usesAll vantage (place + (Expr.nestsOption receiver).length) args
  | .cond _ test yes no =>
      uses vantage place test ++ (uses vantage (place + test.nests.length) yes ++
        uses vantage (place + test.nests.length + yes.nests.length) no)
  | .loop _ test body => uses vantage place test ++ uses vantage (place + test.nests.length) body
  | .block _ body => usesAll (vantage.inside tree place []) 0 body
  | .letIn _ bindings body => usesBindings vantage place bindings fun inner place => uses inner place body
  | .caseOf _ scrutinee branches =>
      uses vantage place scrutinee ++ usesBranches vantage (place + scrutinee.nests.length) branches
  | .isVoid _ operand | .not _ operand | .complement _ operand => uses vantage place operand
  | .binary _ _ left right => uses vantage place left ++ uses vantage (place + left.nests.length) right

def usesOption (vantage : Vantage) (place : Nat) : Option Expr → List Use
  | none => []
  | some expr => uses vantage place expr

def usesAll (vantage : Vantage) (place : Nat) : List Expr → List Use
  | [] => []
  | expr :: exprs => uses vantage place expr ++ usesAll vantage (place + expr.nests.length) exprs

/-- An initializer stands outside of its own binding. -/
def usesBindings (vantage : Vantage) (place : Nat) (bindings : List (Binding Expr))
    (body : Vantage → Nat → List Use) : List Use :=
  match bindings with
  | [] => body vantage place
  | ⟨name, _, init⟩ :: bindings =>
      usesOption vantage place init ++
        usesBindings (vantage.inside tree (place + (Expr.nestsOption init).length) [name.name]) 0 bindings body

def usesBranches (vantage : Vantage) (place : Nat) : List (Branch Expr) → List Use
  | [] => []
  | ⟨name, _, body⟩ :: branches =>
      uses (vantage.inside tree place [name.name]) 0 body ++ usesBranches vantage (place + 1) branches

end

/-- The names that a feature uses whose scope is at a place in the scope of its class. -/
def usesFeature (vantage : Vantage) (place : Nat) : Feature → List Use
  | .attribute decl =>
      usesOption tree { vantage.inside tree place ["self"] with feature := decl.name.name } 0 decl.init
  | .method decl =>
      uses tree { vantage.inside tree place ("self" :: decl.params.map fun param => param.name.name) with
        feature := decl.name.name } 0 decl.body

def usesFeatures (vantage : Vantage) : Nat → List Feature → List Use
  | _, [] => []
  | place, feature :: features => usesFeature tree vantage place feature ++ usesFeatures vantage (place + 1) features

/-- The names that classes use of which the first that has a type has the scope at a place below the root. -/
def usesClasses : Nat → List ClassDecl → ClassTypes → List Use
  | place, _ :: decls, none :: types => usesClasses place decls types
  | place, decl :: decls, some type :: types =>
      usesFeatures tree ⟨type, "", tree.child ScopeTree.root place, []⟩ 0 decl.features ++
        usesClasses (place + 1) decls types
  | _, _, _ => []

end Vantage

namespace Analysis

variable (analysis : Analysis)

/-- The names that the classes of a program use, except for those that have no type. -/
def uses : List Use :=
  Vantage.usesClasses analysis.tree 0 analysis.program.classes analysis.types

/-- What binds an attribute that a class has or inherits: the first of its name in the scope of its owner. -/
def attributeBinder? (type : TypeId) (name : String) : Option Binder :=
  (analysis.hierarchy.attribute? type name).map fun (owner, _) =>
    ⟨name, analysis.tree.classScope analysis.types owner,
      (analysis.hierarchy.info owner).attributes.findIdx fun attr => attr.name == name⟩

/-- What binds a name: the innermost declaration in force, or else an attribute. -/
def binder? (vantage : Vantage) (name : String) : Option Binder :=
  (vantage.binders.find? fun binder => binder.name == name).or (analysis.attributeBinder? vantage.current name)

/-- In its scope, each class has the variables that are its own, one for each of its attributes, and after them those
that its ancestors have as their own. -/
structure Shares (own : TypeId → List VariableId) : Prop where
  slots : ∀ owner, (own owner).map analysis.tree.variableAt =
    (analysis.hierarchy.info owner).attributes.map fun attr => .declared attr.name attr.type
  locals : ∀ type, some type ∈ analysis.types →
    analysis.tree.locals (analysis.tree.classScope analysis.types type) =
      (analysis.hierarchy.ancestors type).flatMap own

/-- The type of a variable as it is meant in a class; the error type where there is no variable. -/
def typeIn (current : TypeId) : Option VariableId → TypeId
  | some id => (analysis.tree.variableAt id).type.resolveIn current
  | none => .error

/-- A name means the variable of its binder, and an expression that reads it has the type of that variable. -/
structure Resolves (use : Use) : Prop where
  bound : ∀ binder ∈ analysis.binder? use.toVantage use.name, ∃ id,
    analysis.tree.bound? binder = some id ∧ (analysis.tree.variableAt id).name = use.name
  means : analysis.tree.find? use.scope use.name = (analysis.binder? use.toVantage use.name).bind analysis.tree.bound?
  reads : ∀ type, use.usage = .read type →
    type = some (analysis.typeIn use.current (analysis.tree.find? use.scope use.name))
  writes : ∀ type position, use.usage = .write type position → type.isSome

/-- What is reported of an assignment to a variable that cannot have the value. -/
def refusal? (use : Use) : Option Diagnostic :=
  match use.usage, analysis.tree.find? use.scope use.name with
  | .write (some type) position, some id =>
      let expected := analysis.typeIn use.current (some id)
      if analysis.hierarchy.conforms type expected then none
      else some ⟨position, .incompatibleTypes (analysis.hierarchy.name type) (analysis.hierarchy.name expected)⟩
  | _, _ => none

end Analysis

end CoolLang
