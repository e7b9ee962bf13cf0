import CoolLang.Hierarchy.Classes
import CoolLang.Typing.State

/-!
The static type of every expression. The root scope has one child for each class, which holds the
attributes that the class has or inherits; a class scope has one child for each feature, which holds
`self` and the parameters; a block opens one scope, a `let` one inside the other for each binding, and
a `case` one for each branch. All other expressions evaluate their operands from left to right in the
scope they stand in.

`Program.check` builds the scope tree on the way, `Program.verify` goes over an existing one.
-/

namespace CoolLang

/-- Where an expression stands. -/
structure Surroundings where
  hierarchy : Hierarchy
  /-- The class around it. -/
  current : TypeId
  /-- The name of the feature around it. -/
  feature : String

namespace Surroundings

/-- A declared type as it is meant in the class around it. -/
def resolveSelf (around : Surroundings) (type : TypeId) : TypeId :=
  type.resolveIn around.current

/-- A type that a declaration names; the hierarchy has reported those that do not exist. -/
def declaredType (around : Surroundings) (written : Ident) : TypeId :=
  around.resolveSelf ((around.hierarchy.find? written.name).getD .error)

/-- The type of an attribute: what the hierarchy knows of it, unless it is a redefinition. -/
def attributeType (around : Surroundings) (decl : AttributeDecl) : TypeId :=
  match (around.hierarchy.info around.current).attributeAt? decl.name.name decl.name.position with
  | some known => around.resolveSelf known.type
  | none => around.declaredType decl.type

/-- The result type of a method: what the hierarchy knows of it, unless it is a redefinition. -/
def resultType (around : Surroundings) (decl : MethodDecl) : TypeId :=
  match (around.hierarchy.info around.current).methodAt? decl.name.name decl.name.position with
  | some known => around.resolveSelf known.result.type
  | none => around.declaredType decl.result

/-- The type that a parameter is declared with. -/
def paramType (around : Surroundings) (param : Param) : TypeId :=
  match around.hierarchy.find? param.type.name with
  | some type => if type = .selfType then .error else type
  | none => .error

/-- Whether two values can be compared for equality: a primitive value only with one of its type. -/
def comparable (around : Surroundings) (left right : TypeId) : Bool :=
  !left.isConcrete || !right.isConcrete ||
    [TypeId.int, TypeId.string, TypeId.bool].all fun primitive =>
      around.hierarchy.conforms left primitive == around.hierarchy.conforms right primitive

/-- Whether an operator is defined between operands of two types. -/
def admits (around : Surroundings) (operator : Operator) (left right : TypeId) : Bool :=
  match operator with
  | .equal => around.comparable left right
  | _ => around.hierarchy.conforms left .int && around.hierarchy.conforms right .int

end Surroundings

namespace Typing

/-- Reports a value that cannot stand where its context expects another type. -/
def expectConforming (around : Surroundings) (type expected : TypeId) (position : Position) :
    Typing Unit := do
  if !around.hierarchy.conforms type expected then
    report position
      (.incompatibleTypes (around.hierarchy.name type) (around.hierarchy.name expected))

/-- The type that a name stands for. -/
def typeOfName (around : Surroundings) (scope : ScopeId) (name : String) (position : Position) :
    Typing TypeId := do
  match ← lookUp scope name with
  | some info => return around.resolveSelf info.type
  | none =>
      report position (.unknownVariable name around.feature)
      return .error

/-- The target of an assignment takes the value if it is a variable other than `self`. -/
def checkTarget (around : Surroundings) (scope : ScopeId) (target : Ident) (type : TypeId)
    (position : Position) : Typing Unit := do
  if target.name = "self" then report target.position .readOnlySelf
  else
    match ← lookUp scope target.name with
    | some info => expectConforming around type (around.resolveSelf info.type) position
    | none => report target.position (.unknownVariable target.name around.feature)

/-- The class in which a dispatch looks for its method: that of the receiver, or the one it is cast
to. -/
def dispatchType (around : Surroundings) (receiver : TypeId) (cast : Option Ident) :
    Typing TypeId := do
  match cast with
  | none => return receiver
  | some written =>
      match around.hierarchy.get written.name with
      | .error error =>
          report written.position error.problem
          return .error
      | .ok type =>
          if type.isConcrete then
            expectConforming around receiver type written.position
            return type
          else
            report written.position (.illegalSelfType written.name "a static dispatch type")
            return .error

/-- What a dispatch calls. -/
inductive Callee where
  /-- A method, with its signature. -/
  | method (params : List TypeId) (result : TypeId)
  /-- Nothing that the arguments could be held against; the dispatch has that type. -/
  | unknown (type : TypeId)

/-- The method that a dispatch calls in a class, if its number of arguments is right. -/
def callee (around : Surroundings) (owner : TypeId) (method : Ident) (args : Nat) :
    Typing Callee := do
  if !owner.isConcrete then return .unknown owner
  match around.hierarchy.method? owner method.name with
  | none =>
      report method.position (.unknownMethod method.name (around.hierarchy.name owner))
      return .unknown .error
  | some (_, known) =>
      if known.params.length = args then
        return .method (known.params.map Variable.type) known.result.type
      else
        report method.position
          (.arityMismatch method.name (around.hierarchy.name owner) known.params.length args)
        return .unknown .error

namespace Callee

/-- The types that the arguments are held against. -/
def params : Callee → List TypeId
  | method params _ => params
  | unknown _ => []

/-- The type of a dispatch to the callee on a receiver. -/
def result (receiver : TypeId) : Callee → TypeId
  | method _ result => result.resolveIn receiver
  | unknown type => type

end Callee

/-- The type that a binding declares; one that is left out is to be inferred. -/
def bindingType (around : Surroundings) (written : Option Ident) : Typing TypeId := do
  match written with
  | none => return .autoType
  | some written =>
      match around.hierarchy.get written.name with
      | .ok type => return around.resolveSelf type
      | .error error =>
          report written.position error.problem
          return .error

/-- The type of a branch: a class that no branch before it has. Returns the classes seen so far,
too. -/
def branchType (around : Surroundings) (seen : List TypeId) (written : Ident) :
    Typing (TypeId × List TypeId) := do
  match around.hierarchy.get written.name with
  | .error error =>
      report written.position error.problem
      return (.error, seen)
  | .ok type =>
      if !type.isConcrete then
        report written.position (.illegalSelfType written.name "a case branch type")
        return (.error, seen)
      else if type ∈ seen then
        report written.position (.duplicateBranch written.name)
        return (type, seen)
      else
        return (type, seen ++ [type])

/-- The type of a new object. -/
def newType (around : Surroundings) (written : Ident) : Typing TypeId := do
  match around.hierarchy.get written.name with
  | .error error =>
      report written.position error.problem
      return .error
  | .ok type =>
      if type = .selfType then return around.current
      else if type = .autoType then
        report written.position (.illegalSelfType written.name "an instantiated type")
        return .error
      else return type

mutual

/-- Types an expression that stands in a scope. Returns it with the static types filled in, and its own
type. -/
def check (around : Surroundings) (scope : ScopeId) : Expr → Typing (Expr × TypeId)
  | .integer note value => return (.integer (note.typed .int) value, .int)
  | .string note value => return (.string (note.typed .string) value, .string)
  | .boolean note value => return (.boolean (note.typed .bool) value, .bool)
  | .identifier note name => do
      let type ← typeOfName around scope name note.position
      return (.identifier (note.typed type) name, type)
  | .assign note target value => do
      let (value, type) ← check around scope value
      checkTarget around scope target type value.position
      return (.assign (note.typed type) target value, type)
  | .dispatch note receiver cast method args => do
      let (receiver, receiverType) ← checkReceiver around scope receiver
      let owner ← dispatchType around receiverType cast
      let callee ← callee around owner method args.length
      let args ← checkArgs around scope args callee.params
      let type := callee.result receiverType
      return (.dispatch (note.typed type) receiver cast method args, type)
  | .cond note test yes no => do
      let (test, testType) ← check around scope test
      expectConforming around testType .bool test.position
      let (yes, yesType) ← check around scope yes
      let (no, noType) ← check around scope no
      let type := around.hierarchy.union yesType noType
      return (.cond (note.typed type) test yes no, type)
  | .loop note test body => do
      let (test, testType) ← check around scope test
      expectConforming around testType .bool test.position
      let (body, _) ← check around scope body
      return (.loop (note.typed .object) test body, .object)
  | .block note body => do
      let inner ← openScope scope
      let (body, type) ← checkAll around inner .object body
      closeScope
      return (.block (note.typed type) body, type)
  | .letIn note bindings body => do
      let (bindings, body, type) ←
        checkBindings around scope bindings fun inner => check around inner body
      return (.letIn (note.typed type) bindings body, type)
  | .caseOf note scrutinee branches => do
      let (scrutinee, _) ← check around scope scrutinee
      let (branches, type) ← checkBranches around scope [] none branches
      let type := type.getD .error
      return (.caseOf (note.typed type) scrutinee branches, type)
  | .new note written => do
      let type ← newType around written
      return (.new (note.typed type) written, type)
  | .isVoid note operand => do
      let (operand, _) ← check around scope operand
      return (.isVoid (note.typed .bool) operand, .bool)
  | .not note operand => do
      let (operand, operandType) ← check around scope operand
      expectConforming around operandType .bool operand.position
      return (.not (note.typed .bool) operand, .bool)
  | .complement note operand => do
      let (operand, operandType) ← check around scope operand
      expectConforming around operandType .int operand.position
      return (.complement (note.typed .int) operand, .int)
  | .binary note operator left right => do
      let (left, leftType) ← check around scope left
      let (right, rightType) ← check around scope right
      if !around.admits operator leftType rightType then
        report note.position
          (.invalidOperation (around.hierarchy.name leftType) (around.hierarchy.name rightType))
      let type := operator.resultType
      return (.binary (note.typed type) operator left right, type)

/-- Types the receiver of a dispatch, which is `self` where none is written. -/
def checkReceiver (around : Surroundings) (scope : ScopeId) :
    Option Expr → Typing (Option Expr × TypeId)
  | none => return (none, around.current)
  | some receiver => do
      let (receiver, type) ← check around scope receiver
      return (some receiver, type)

/-- Types arguments in order and holds each against the parameter of its place, if there is one. -/
def checkArgs (around : Surroundings) (scope : ScopeId) :
    List Expr → List TypeId → Typing (List Expr)
  | [], _ => return []
  | arg :: args, params => do
      let (arg, type) ← check around scope arg
      match params.head? with
      | some param => expectConforming around type param arg.position
      | none => pure ()
      let args ← checkArgs around scope args params.tail
      return arg :: args

/-- Types expressions in order; `last` is the type of what came before them. Returns the type of the
last one, too. -/
def checkAll (around : Surroundings) (scope : ScopeId) (last : TypeId) :
    List Expr → Typing (List Expr × TypeId)
  | [] => return ([], last)
  | expr :: exprs => do
      let (expr, type) ← check around scope expr
      let (exprs, type) ← checkAll around scope type exprs
      return (expr :: exprs, type)

/-- Types bindings, each in force for those after it and for the body, which is typed in the innermost
scope. -/
def checkBindings (around : Surroundings) (scope : ScopeId) (bindings : List (Binding Expr))
    (body : ScopeId → Typing (Expr × TypeId)) :
    Typing (List (Binding Expr) × Expr × TypeId) :=
  match bindings with
  | [] => do
      let (body, type) ← body scope
      return ([], body, type)
  | ⟨name, written, init⟩ :: bindings => do
      let declared ← bindingType around written
      let init ← checkInit around scope init
      let inner ← openScope scope
      let declared ← declare inner 0 (.declared name.name declared)
      match init with
      | some (init, type) => expectConforming around type declared init.position
      | none => pure ()
      let (bindings, body, type) ← checkBindings around inner bindings body
      closeScope
      return (⟨name, written, init.map Prod.fst⟩ :: bindings, body, type)

/-- Types the initializer of a binding, if there is one. -/
def checkInit (around : Surroundings) (scope : ScopeId) :
    Option Expr → Typing (Option (Expr × TypeId))
  | none => return none
  | some init => do
      let init ← check around scope init
      return some init

/-- Types branches in order; `type` is the union of the types of those before them. -/
def checkBranches (around : Surroundings) (scope : ScopeId) (seen : List TypeId)
    (type : Option TypeId) : List (Branch Expr) → Typing (List (Branch Expr) × Option TypeId)
  | [] => return ([], type)
  | ⟨name, written, body⟩ :: branches => do
      let (declared, seen) ← branchType around seen written
      let inner ← openScope scope
      let _ ← declare inner 0 (.declared name.name declared)
      let (body, bodyType) ← check around inner body
      closeScope
      let type := type.elim bodyType fun type => around.hierarchy.union type bodyType
      let (branches, type) ← checkBranches around scope seen (some type) branches
      return (⟨name, written, body⟩ :: branches, type)

end

/-- Declares parameters, the first of them as the local of that place. -/
def declareParams (around : Surroundings) (scope : ScopeId) : Nat → List Param → Typing Unit
  | _, [] => return
  | place, param :: params => do
      let _ ← declare scope place (.declared param.name.name (around.paramType param))
      declareParams around scope (place + 1) params

/-- Types an attribute's initializer, if it has one. -/
def checkAttribute (around : Surroundings) (scope : ScopeId) (decl : AttributeDecl) :
    Typing AttributeDecl := do
  let declared := around.attributeType decl
  match decl.init with
  | none => return decl
  | some init =>
      let (init, type) ← check around scope init
      expectConforming around type declared init.position
      return { decl with init := some init }

/-- Types a method's body. -/
def checkMethod (around : Surroundings) (scope : ScopeId) (decl : MethodDecl) :
    Typing MethodDecl := do
  declareParams around scope 1 decl.params
  let (body, type) ← check around scope decl.body
  expectConforming around type (around.resultType decl) body.position
  return { decl with body := body }

/-- Types a feature in its own scope, a child of the class scope. -/
def checkFeature (hierarchy : Hierarchy) (type : TypeId) (classScope : ScopeId)
    (feature : Feature) : Typing Feature := do
  let scope ← openScope classScope
  let _ ← declare scope 0 (.declared "self" type)
  let feature ← match feature with
    | .attribute decl =>
        let decl ← checkAttribute ⟨hierarchy, type, decl.name.name⟩ scope decl
        pure (.attribute decl)
    | .method decl =>
        let decl ← checkMethod ⟨hierarchy, type, decl.name.name⟩ scope decl
        pure (.method decl)
  closeScope
  return feature

def checkFeatures (hierarchy : Hierarchy) (type : TypeId) (classScope : ScopeId) :
    List Feature → Typing (List Feature)
  | [] => return []
  | feature :: features => do
      let feature ← checkFeature hierarchy type classScope feature
      let features ← checkFeatures hierarchy type classScope features
      return feature :: features

/-- Types a class in its scope. -/
def checkClass (hierarchy : Hierarchy) (type : TypeId) (classScope : ScopeId) (decl : ClassDecl) :
    Typing ClassDecl := do
  let features ← checkFeatures hierarchy type classScope decl.features
  return { decl with features := features }

/-- Types the classes that have a type, each in the next of the class scopes. -/
def checkClasses (hierarchy : Hierarchy) :
    List ClassDecl → ClassTypes → List ScopeId → Typing (List ClassDecl)
  | decl :: decls, none :: types, scopes => do
      let decls ← checkClasses hierarchy decls types scopes
      return decl :: decls
  | decl :: decls, some type :: types, scope :: scopes => do
      let decl ← checkClass hierarchy type scope decl
      let decls ← checkClasses hierarchy decls types scopes
      return decl :: decls
  | decls, _, _ => return decls

/-- Types the classes that have a type, each in a scope that is opened for it. -/
def verifyClasses (hierarchy : Hierarchy) :
    List ClassDecl → ClassTypes → Typing (List ClassDecl)
  | decl :: decls, none :: types => do
      let decls ← verifyClasses hierarchy decls types
      return decl :: decls
  | decl :: decls, some type :: types => do
      let scope ← openScope ScopeTree.root
      let decl ← checkClass hierarchy type scope decl
      closeScope
      let decls ← verifyClasses hierarchy decls types
      return decl :: decls
  | decls, _ => return decls

end Typing

/-- A class with its scope and the variables of its own attributes. -/
structure ClassScope where
  type : TypeId
  scope : ScopeId
  own : List VariableId

namespace ScopeTree

/-- Allocates a variable for each attribute. -/
def allocateAll : ScopeTree → List Attribute → List VariableId × ScopeTree
  | tree, [] => ([], tree)
  | tree, attr :: attributes =>
      let (id, tree) := tree.allocate (.declared attr.name attr.type)
      let (ids, tree) := allocateAll tree attributes
      (id :: ids, tree)

/-- Creates a scope below the root for each type, and variables for the attributes of each. -/
def createClassScopes (hierarchy : Hierarchy) :
    ScopeTree → List TypeId → List ClassScope × ScopeTree
  | tree, [] => ([], tree)
  | tree, type :: types =>
      let (scope, tree) := tree.createChild root
      let (own, tree) := tree.allocateAll (hierarchy.info type).attributes
      let (scopes, tree) := createClassScopes hierarchy tree types
      (⟨type, scope, own⟩ :: scopes, tree)

/-- The attribute variables that a class sees: its own, then those of each ancestor in turn. -/
def visibleAttributes (hierarchy : Hierarchy) (classes : List ClassScope) (type : TypeId) :
    List VariableId :=
  (hierarchy.ancestors type).flatMap fun owner =>
    ((classes.find? fun known => known.type == owner).map ClassScope.own).getD []

/-- The scopes of all classes, each with the attributes that the class sees. -/
def openClasses (hierarchy : Hierarchy) (types : ClassTypes) : List ScopeId × ScopeTree :=
  let (classes, tree) := createClassScopes hierarchy initial (types.filterMap id)
  let tree := classes.foldl
    (fun tree known =>
      (visibleAttributes hierarchy classes known.type).foldl
        (fun tree id => tree.attach known.scope id) tree)
    tree
  (classes.map ClassScope.scope, tree)

end ScopeTree

namespace Program

/-- Types a program and builds its scope tree. -/
def check (program : Program) (types : ClassTypes) (hierarchy : Hierarchy) :
    Program × ScopeTree × List Diagnostic :=
  let (scopes, tree) := ScopeTree.openClasses hierarchy types
  let (classes, state) := (Typing.checkClasses hierarchy program.classes types scopes).run
    ⟨tree, none, none, #[]⟩
  (⟨classes⟩, state.tree, state.found.toList)

/-- Types a program again over a scope tree that it has already, with the types that the variables of
the tree have by now. -/
def verify (program : Program) (types : ClassTypes) (hierarchy : Hierarchy) (tree : ScopeTree) :
    Program × List Diagnostic × Except ScopeDrift Unit :=
  let (classes, state) := (Typing.verifyClasses hierarchy program.classes types).run
    ⟨tree, some Cursor.initial, none, #[]⟩
  let outcome := match state.drift, state.cursor with
    | some drift, _ => .error drift
    | none, some cursor => cursor.finish state.tree
    | none, none => .ok ()
  (⟨classes⟩, state.found.toList, outcome)

end Program

end CoolLang
