import CoolLang.Program.Nesting
import CoolLang.Typing.Check

/-!
Typing as a function of the syntax. Instead of a state there is a site: the variables in sight and, where
a scope tree is there already, the scope that an expression stands in. An expression finds the scopes
that it opens at a place among the children of its own scope; without a tree all variables are as they
are written. What is found about the program is a list of findings: which values flow into which
declarations, and what is wrong apart from that.
-/

namespace CoolLang

namespace ScopeTree

/-- The variables that are local to a scope. -/
def slots (tree : ScopeTree) (scope : ScopeId) : List Variable :=
  (tree.locals scope).map tree.variableAt

/-- The child of a scope at a place, or else the scope itself. -/
def child (tree : ScopeTree) (scope : ScopeId) (place : Nat) : ScopeId :=
  (tree.children scope)[place]?.getD scope

end ScopeTree

/-- What a value flows into. -/
inductive Target where
  /-- A variable that is assigned to or initialized. -/
  | variable (info : Variable)
  | attribute (decl : AttributeDecl)
  /-- A parameter in the signature of a method. -/
  | param (info : Variable)
  | result (decl : MethodDecl)
  /-- An operator, a condition or a cast, which declares nothing. -/
  | operand

inductive Finding where
  /-- A value of a type, at a position, where another type is expected. -/
  | flow (target : Target) (type expected : TypeId) (position : Position)
  | fault (diagnostic : Diagnostic)

namespace Finding

/-- What a finding is reported as. -/
def diagnostics (hierarchy : Hierarchy) : Finding → List Diagnostic
  | flow _ type expected position =>
      if hierarchy.conforms type expected then []
      else [⟨position, .incompatibleTypes (hierarchy.name type) (hierarchy.name expected)⟩]
  | fault diagnostic => [diagnostic]

end Finding

/-- A value with the findings that were made on the way to it. -/
structure Survey (α : Type) where
  value : α
  findings : List Finding

namespace Survey

instance : Monad Survey where
  pure value := ⟨value, []⟩
  bind survey next :=
    ⟨(next survey.value).value, survey.findings ++ (next survey.value).findings⟩

/-- What is found is reported in order. -/
def diagnostics {α : Type} (hierarchy : Hierarchy) (survey : Survey α) : List Diagnostic :=
  survey.findings.flatMap (Finding.diagnostics hierarchy)

def flow (target : Target) (type expected : TypeId) (position : Position) : Survey Unit :=
  ⟨(), [.flow target type expected position]⟩

def fault (position : Position) (problem : Problem) : Survey Unit :=
  ⟨(), [.fault ⟨position, problem⟩]⟩

end Survey

/-- Where an expression stands. -/
structure Site extends Surroundings where
  /-- With the types that the variables have by now; none if these are as written. -/
  tree : Option ScopeTree
  /-- The scope in the tree. -/
  scope : ScopeId
  /-- The variables in sight, innermost first. -/
  env : List Variable

/-- The variables that a feature declares. -/
def Surroundings.featureVariables (around : Surroundings) : Feature → List Variable
  | .attribute _ => [.declared "self" around.current]
  | .method decl => .declared "self" around.current ::
      decl.params.map fun param => .declared param.name.name (around.paramType param)

namespace Site

/-- The scope at a place inside that of the site. -/
def child (site : Site) (place : Nat) : ScopeId :=
  site.tree.elim site.scope fun tree => tree.child site.scope place

/-- The variables that stand for what is declared in the scope at a place. -/
def slots (site : Site) (place : Nat) (written : List Variable) : List Variable :=
  site.tree.elim written fun tree => tree.slots (site.child place)

/-- The site in the scope at a place. -/
def inside (site : Site) (place : Nat) (written : List Variable) : Site :=
  { site with
    scope := site.child place
    env := site.slots place written ++ site.env }

def lookUp? (site : Site) (name : String) : Option Variable :=
  site.env.find? fun info => info.name == name

/-- The type that a name stands for. -/
def typeOfName (site : Site) (name : String) (position : Position) : Survey TypeId := do
  match site.lookUp? name with
  | some info => return site.resolveSelf info.type
  | none =>
      Survey.fault position (.unknownVariable name site.feature)
      return .error

/-- A value flows into the target of an assignment if that is a variable other than `self`. -/
def surveyTarget (site : Site) (target : Ident) (type : TypeId) (position : Position) :
    Survey Unit :=
  if target.name = "self" then Survey.fault target.position .readOnlySelf
  else
    match site.lookUp? target.name with
    | some info => Survey.flow (.variable info) type (site.resolveSelf info.type) position
    | none => Survey.fault target.position (.unknownVariable target.name site.feature)

/-- The class in which a dispatch looks for its method. -/
def dispatchType (site : Site) (receiver : TypeId) (cast : Option Ident) : Survey TypeId := do
  match cast with
  | none => return receiver
  | some written =>
      match site.hierarchy.get written.name with
      | .error error =>
          Survey.fault written.position error.problem
          return .error
      | .ok type =>
          if type.isConcrete then
            Survey.flow .operand receiver type written.position
            return type
          else
            Survey.fault written.position (.illegalSelfType written.name "a static dispatch type")
            return .error

/-- The method that a dispatch calls in a class, if its number of arguments is right, or else the type
of the dispatch. -/
def callee (site : Site) (owner : TypeId) (method : Ident) (args : Nat) :
    Survey (Method ⊕ TypeId) := do
  if !owner.isConcrete then return .inr owner
  match site.hierarchy.method? owner method.name with
  | none =>
      Survey.fault method.position (.unknownMethod method.name (site.hierarchy.name owner))
      return .inr .error
  | some (_, known) =>
      if known.params.length = args then return .inl known
      else
        Survey.fault method.position
          (.arityMismatch method.name (site.hierarchy.name owner) known.params.length args)
        return .inr .error

/-- The parameters that the arguments of a dispatch are for. -/
def calleeParams : Method ⊕ TypeId → List Variable
  | .inl known => known.params
  | .inr _ => []

/-- The type of a dispatch on a receiver. -/
def calleeResult (receiver : TypeId) : Method ⊕ TypeId → TypeId
  | .inl known => known.result.type.resolveIn receiver
  | .inr type => type

/-- The type that a binding declares. -/
def bindingType (site : Site) (written : Option Ident) : Survey TypeId := do
  match written with
  | none => return .autoType
  | some written =>
      match site.hierarchy.get written.name with
      | .ok type => return site.resolveSelf type
      | .error error =>
          Survey.fault written.position error.problem
          return .error

/-- The type of a branch, with the classes seen so far. -/
def branchType (site : Site) (seen : List TypeId) (written : Ident) :
    Survey (TypeId × List TypeId) := do
  match site.hierarchy.get written.name with
  | .error error =>
      Survey.fault written.position error.problem
      return (.error, seen)
  | .ok type =>
      if !type.isConcrete then
        Survey.fault written.position (.illegalSelfType written.name "a case branch type")
        return (.error, seen)
      else if type ∈ seen then
        Survey.fault written.position (.duplicateBranch written.name)
        return (type, seen)
      else
        return (type, seen ++ [type])

/-- The type of a new object. -/
def newType (site : Site) (written : Ident) : Survey TypeId := do
  match site.hierarchy.get written.name with
  | .error error =>
      Survey.fault written.position error.problem
      return .error
  | .ok type =>
      if type = .selfType then return site.current
      else if type = .autoType then
        Survey.fault written.position (.illegalSelfType written.name "an instantiated type")
        return .error
      else return type

mutual

/-- Types an expression whose scopes begin at a place among the children of its own scope. -/
def survey (site : Site) (place : Nat) : Expr → Survey (Expr × TypeId)
  | .integer note value => return (.integer (note.typed .int) value, .int)
  | .string note value => return (.string (note.typed .string) value, .string)
  | .boolean note value => return (.boolean (note.typed .bool) value, .bool)
  | .identifier note name => do
      let type ← site.typeOfName name note.position
      return (.identifier (note.typed type) name, type)
  | .assign note target value => do
      let (value, type) ← survey site place value
      site.surveyTarget target type value.position
      return (.assign (note.typed type) target value, type)
  | .dispatch note receiver cast method args => do
      let before := (Expr.nestsOption receiver).length
      let (receiver, receiverType) ← surveyReceiver site place receiver
      let owner ← site.dispatchType receiverType cast
      let callee ← site.callee owner method args.length
      let args ← surveyArgs site (place + before) args (calleeParams callee)
      let type := calleeResult receiverType callee
      return (.dispatch (note.typed type) receiver cast method args, type)
  | .cond note test yes no => do
      let second := place + test.nests.length
      let third := second + yes.nests.length
      let (test, testType) ← survey site place test
      Survey.flow .operand testType .bool test.position
      let (yes, yesType) ← survey site second yes
      let (no, noType) ← survey site third no
      let type := site.hierarchy.union yesType noType
      return (.cond (note.typed type) test yes no, type)
  | .loop note test body => do
      let second := place + test.nests.length
      let (test, testType) ← survey site place test
      Survey.flow .operand testType .bool test.position
      let (body, _) ← survey site second body
      return (.loop (note.typed .object) test body, .object)
  | .block note body => do
      let (body, type) ← surveyAll (site.inside place []) 0 .object body
      return (.block (note.typed type) body, type)
  | .letIn note bindings body => do
      let (bindings, body, type) ←
        surveyBindings site place bindings fun inner place => survey inner place body
      return (.letIn (note.typed type) bindings body, type)
  | .caseOf note scrutinee branches => do
      let second := place + scrutinee.nests.length
      let (scrutinee, _) ← survey site place scrutinee
      let (branches, type) ← surveyBranches site second [] none branches
      let type := type.getD .error
      return (.caseOf (note.typed type) scrutinee branches, type)
  | .new note written => do
      let type ← site.newType written
      return (.new (note.typed type) written, type)
  | .isVoid note operand => do
      let (operand, _) ← survey site place operand
      return (.isVoid (note.typed .bool) operand, .bool)
  | .not note operand => do
      let (operand, operandType) ← survey site place operand
      Survey.flow .operand operandType .bool operand.position
      return (.not (note.typed .bool) operand, .bool)
  | .complement note operand => do
      let (operand, operandType) ← survey site place operand
      Survey.flow .operand operandType .int operand.position
      return (.complement (note.typed .int) operand, .int)
  | .binary note operator left right => do
      let second := place + left.nests.length
      let (left, leftType) ← survey site place left
      let (right, rightType) ← survey site second right
      if !site.admits operator leftType rightType then
        Survey.fault note.position
          (.invalidOperation (site.hierarchy.name leftType) (site.hierarchy.name rightType))
      let type := operator.resultType
      return (.binary (note.typed type) operator left right, type)

/-- Types the receiver of a dispatch, which is `self` where none is written. -/
def surveyReceiver (site : Site) (place : Nat) : Option Expr → Survey (Option Expr × TypeId)
  | none => return (none, site.current)
  | some receiver => do
      let (receiver, type) ← survey site place receiver
      return (some receiver, type)

/-- Types arguments, each of which flows into the parameter of its place, if there is one. -/
def surveyArgs (site : Site) (place : Nat) : List Expr → List Variable → Survey (List Expr)
  | [], _ => return []
  | arg :: args, params => do
      let second := place + arg.nests.length
      let (arg, type) ← survey site place arg
      match params.head? with
      | some param => Survey.flow (.param param) type param.type arg.position
      | none => pure ()
      let args ← surveyArgs site second args params.tail
      return arg :: args

/-- Types expressions in order; `last` is the type of what came before them. -/
def surveyAll (site : Site) (place : Nat) (last : TypeId) :
    List Expr → Survey (List Expr × TypeId)
  | [] => return ([], last)
  | expr :: exprs => do
      let second := place + expr.nests.length
      let (expr, type) ← survey site place expr
      let (exprs, type) ← surveyAll site second type exprs
      return (expr :: exprs, type)

/-- Types bindings, each in force for those after it and for the body. -/
def surveyBindings (site : Site) (place : Nat) (bindings : List (Binding Expr))
    (body : Site → Nat → Survey (Expr × TypeId)) :
    Survey (List (Binding Expr) × Expr × TypeId) :=
  match bindings with
  | [] => do
      let (body, type) ← body site place
      return ([], body, type)
  | ⟨name, written, init⟩ :: bindings => do
      let second := place + (Expr.nestsOption init).length
      let declared ← site.bindingType written
      let init ← surveyInit site place init
      let written' := Variable.declared name.name declared
      let info := (site.slots second [written']).headD written'
      match init with
      | some (init, type) => Survey.flow (.variable info) type info.type init.position
      | none => pure ()
      let inner := site.inside second [written']
      let (bindings, body, type) ← surveyBindings inner 0 bindings body
      return (⟨name, written, init.map Prod.fst⟩ :: bindings, body, type)

/-- Types the initializer of a binding, if there is one. -/
def surveyInit (site : Site) (place : Nat) : Option Expr → Survey (Option (Expr × TypeId))
  | none => return none
  | some init => do
      let init ← survey site place init
      return some init

/-- Types branches in order; `type` is the union of the types of those before them. -/
def surveyBranches (site : Site) (place : Nat) (seen : List TypeId) (type : Option TypeId) :
    List (Branch Expr) → Survey (List (Branch Expr) × Option TypeId)
  | [] => return ([], type)
  | ⟨name, written, body⟩ :: branches => do
      let (declared, seen) ← site.branchType seen written
      let inner := site.inside place [.declared name.name declared]
      let (body, bodyType) ← survey inner 0 body
      let type := type.elim bodyType fun type => site.hierarchy.union type bodyType
      let (branches, type) ← surveyBranches site (place + 1) seen (some type) branches
      return (⟨name, written, body⟩ :: branches, type)

end

/-- The value of an initializer flows into its attribute. -/
def surveyAttribute (site : Site) (decl : AttributeDecl) : Survey AttributeDecl := do
  match decl.init with
  | none => return decl
  | some init =>
      let (init, type) ← survey site 0 init
      Survey.flow (.attribute decl) type (site.attributeType decl) init.position
      return { decl with init := some init }

/-- The value of a body flows into the result of its method. -/
def surveyMethod (site : Site) (decl : MethodDecl) : Survey MethodDecl := do
  let (body, type) ← survey site 0 decl.body
  Survey.flow (.result decl) type (site.resultType decl) body.position
  return { decl with body := body }

/-- Types a feature, whose scope is at a place in the scope of its class. -/
def surveyFeature (site : Site) (place : Nat) (feature : Feature) : Survey Feature := do
  let inner := site.inside place (site.featureVariables feature)
  match feature with
  | .attribute decl =>
      let decl ← surveyAttribute { inner with feature := decl.name.name } decl
      return .attribute decl
  | .method decl =>
      let decl ← surveyMethod { inner with feature := decl.name.name } decl
      return .method decl

def surveyFeatures (site : Site) : Nat → List Feature → Survey (List Feature)
  | _, [] => return []
  | place, feature :: features => do
      let feature ← surveyFeature site place feature
      let features ← surveyFeatures site (place + 1) features
      return feature :: features

/-- The attributes that a class has or inherits from classes of the program. -/
def attributes (hierarchy : Hierarchy) (types : ClassTypes) (type : TypeId) : List Variable :=
  (hierarchy.ancestors type).flatMap fun owner =>
    if some owner ∈ types then
      (hierarchy.info owner).attributes.map fun attr => .declared attr.name attr.type
    else []

/-- Where the features of a class stand: in the scope at a place below the root. -/
def ofClass (hierarchy : Hierarchy) (tree : Option ScopeTree) (types : ClassTypes) (type : TypeId)
    (place : Nat) : Site :=
  inside ⟨⟨hierarchy, type, ""⟩, tree, ScopeTree.root, []⟩ place (attributes hierarchy types type)

def surveyClass (site : Site) (decl : ClassDecl) : Survey ClassDecl := do
  let features ← surveyFeatures site 0 decl.features
  return { decl with features := features }

/-- Types the classes that have a type; `all` are the types of all classes, and the first of these
classes has the scope of that place. -/
def surveyClasses (hierarchy : Hierarchy) (tree : Option ScopeTree) (all : ClassTypes) :
    Nat → List ClassDecl → ClassTypes → Survey (List ClassDecl)
  | place, decl :: decls, none :: types => do
      let decls ← surveyClasses hierarchy tree all place decls types
      return decl :: decls
  | place, decl :: decls, some type :: types => do
      let decl ← surveyClass (ofClass hierarchy tree all type place) decl
      let decls ← surveyClasses hierarchy tree all (place + 1) decls types
      return decl :: decls
  | _, decls, _ => return decls

end Site

/-- Types a program, over a scope tree if it has one already. -/
def Program.survey (program : Program) (types : ClassTypes) (hierarchy : Hierarchy)
    (tree : Option ScopeTree) : Survey Program := do
  let classes ← Site.surveyClasses hierarchy tree types 0 program.classes types
  return ⟨classes⟩

end CoolLang
