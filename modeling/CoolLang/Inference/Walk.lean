import CoolLang.Hierarchy.Classes
import CoolLang.Inference.State

/-!
One walk of inference over a program. Types flow in two directions: the type that a context expects is
handed down to its operands and reaches the variables among them, and the type of a value is observed
for the declaration that it flows into. The scopes are entered in the order in which typing has created
them.
-/

namespace CoolLang

namespace Inference

/-- The type of a name, which learns what its context expects. -/
def inferName (current : TypeId) (hint : Option TypeId) (name : String) : Inference TypeId := do
  match ← lookUp name with
  | none => return .error
  | some id =>
      match hint with
      | some hint => observeHint id hint
      | none => pure ()
      return (← typeOf id).resolveIn current

/-- What the target of an assignment expects of the value. -/
def targetHint (current : TypeId) : Option VariableId → Inference (Option TypeId)
  | none => return none
  | some id => return ((← typeOf id).resolveIn current).expected?

/-- The value of an assignment flows into any variable other than `self`. -/
def observeTarget (target : Ident) (id : Option VariableId) (type : TypeId) : Inference Unit :=
  match id with
  | some id => if target.name = "self" then return else observeValue id type
  | none => return

/-- The class that a dispatch is cast to. -/
def castType (hierarchy : Hierarchy) (written : Ident) : TypeId :=
  (((hierarchy.find? written.name).getD .error).expected?).getD .error

/-- The method that a dispatch calls in a class, with its owner, if its number of arguments is
right. -/
def callee? (hierarchy : Hierarchy) (type : TypeId) (method : Ident) (args : Nat) :
    Option (TypeId × Method) :=
  if type.isConcrete then
    (hierarchy.method? type method.name).filter fun (_, known) => known.params.length == args
  else none

/-- The parameter that an argument is for. -/
def paramAt (callee : Option (TypeId × Method)) (place : Nat) : Option Variable :=
  callee.bind fun (_, method) => method.params[place]?

/-- An argument flows into a parameter that is to be inferred. -/
def observeArgument (callee : Option (TypeId × Method)) (place : Nat) (type : TypeId) :
    Inference Unit :=
  match callee with
  | none => return
  | some (owner, method) =>
      if (paramAt callee place).any Variable.auto then
        updateParam owner method.name place fun hierarchy info =>
          info.observeValue hierarchy.union type
      else return

/-- The type of a dispatch that looks for its method in a class. -/
def dispatchResult (callee : Option (TypeId × Method)) (receiver type : TypeId) : TypeId :=
  match callee with
  | some (_, method) => method.result.type.resolveIn receiver
  | none => if type = .autoType then .autoType else .error

/-- The type that a binding declares. -/
def bindingType (hierarchy : Hierarchy) (current : TypeId) : Option Ident → TypeId
  | none => .autoType
  | some written => ((hierarchy.find? written.name).getD .error).resolveIn current

/-- The type of a new object. -/
def newType (hierarchy : Hierarchy) (current : TypeId) (written : Ident) : TypeId :=
  match hierarchy.find? written.name with
  | some type => ((type.resolveIn current).expected?).getD .error
  | none => .error

mutual

/-- Infers what an expression says about the declarations that it uses; `hint` is the type that its
context expects. Returns the expression with its static types brought up to date, and its own type. -/
def infer (current : TypeId) (hint : Option TypeId) : Expr → Inference (Expr × TypeId)
  | .integer note value => do return (.integer (← noted note .int) value, .int)
  | .string note value => do return (.string (← noted note .string) value, .string)
  | .boolean note value => do return (.boolean (← noted note .bool) value, .bool)
  | .identifier note name => do
      let type ← inferName current hint name
      return (.identifier (← noted note type) name, type)
  | .assign note target value => do
      let id ← lookUp target.name
      let (value, type) ← infer current (← targetHint current id) value
      observeTarget target id type
      return (.assign (← noted note type) target value, type)
  | .dispatch note receiver cast method args => do
      let cast? := cast.map (castType (← get).hierarchy)
      let (receiver, receiverType) ←
        inferReceiver current (cast?.bind TypeId.expected?) receiver
      let type := cast?.getD receiverType
      let callee := callee? (← get).hierarchy type method args.length
      let args ← inferArgs current callee 0 args
      let type := dispatchResult callee receiverType type
      return (.dispatch (← noted note type) receiver cast method args, type)
  | .cond note test yes no => do
      let (test, _) ← infer current (some .bool) test
      let (yes, yesType) ← infer current hint yes
      let (no, noType) ← infer current hint no
      let type := (← get).hierarchy.union yesType noType
      return (.cond (← noted note type) test yes no, type)
  | .loop note test body => do
      let (test, _) ← infer current (some .bool) test
      let (body, _) ← infer current none body
      return (.loop (← noted note .object) test body, .object)
  | .block note body => do
      let _ ← openScope
      let (body, type) ← inferAll current hint .object body
      closeScope
      return (.block (← noted note type) body, type)
  | .letIn note bindings body => do
      let (bindings, body, type) ← inferBindings current bindings (infer current hint body)
      return (.letIn (← noted note type) bindings body, type)
  | .caseOf note scrutinee branches => do
      let (scrutinee, _) ← infer current none scrutinee
      let (branches, type) ← inferBranches current hint none branches
      let type := type.getD .error
      return (.caseOf (← noted note type) scrutinee branches, type)
  | .new note written => do
      let type := newType (← get).hierarchy current written
      return (.new (← noted note type) written, type)
  | .isVoid note operand => do
      let (operand, _) ← infer current none operand
      return (.isVoid (← noted note .bool) operand, .bool)
  | .not note operand => do
      let (operand, _) ← infer current (some .bool) operand
      return (.not (← noted note .bool) operand, .bool)
  | .complement note operand => do
      let (operand, _) ← infer current (some .int) operand
      return (.complement (← noted note .int) operand, .int)
  | .binary note .equal left right => do
      let (left, leftType) ← infer current (right.type?.bind TypeId.expected?) left
      let (right, _) ← infer current leftType.expected? right
      return (.binary (← noted note .bool) .equal left right, .bool)
  | .binary note operator left right => do
      let (left, _) ← infer current (some .int) left
      let (right, _) ← infer current (some .int) right
      let type := operator.resultType
      return (.binary (← noted note type) operator left right, type)

/-- Infers the receiver of a dispatch, which is `self` where none is written. -/
def inferReceiver (current : TypeId) (hint : Option TypeId) :
    Option Expr → Inference (Option Expr × TypeId)
  | none => return (none, current)
  | some receiver => do
      let (receiver, type) ← infer current hint receiver
      return (some receiver, type)

/-- Infers arguments in order, the first of them for the parameter of that place. -/
def inferArgs (current : TypeId) (callee : Option (TypeId × Method)) :
    Nat → List Expr → Inference (List Expr)
  | _, [] => return []
  | place, arg :: args => do
      let hint := (paramAt callee place).bind fun param => param.type.expected?
      let (arg, type) ← infer current hint arg
      observeArgument callee place type
      let args ← inferArgs current callee (place + 1) args
      return arg :: args

/-- Infers expressions in order; the hint is for the last of them, and `last` is the type of what came
before them. Returns the type of the last one, too. -/
def inferAll (current : TypeId) (hint : Option TypeId) (last : TypeId) :
    List Expr → Inference (List Expr × TypeId)
  | [] => return ([], last)
  | expr :: exprs => do
      let (expr, type) ← infer current (if exprs.isEmpty then hint else none) expr
      let (exprs, type) ← inferAll current hint type exprs
      return (expr :: exprs, type)

/-- Infers bindings, each in force for those after it and for the body. -/
def inferBindings (current : TypeId) (bindings : List (Binding Expr))
    (body : Inference (Expr × TypeId)) : Inference (List (Binding Expr) × Expr × TypeId) :=
  match bindings with
  | [] => do
      let (body, type) ← body
      return ([], body, type)
  | ⟨name, written, init⟩ :: bindings => do
      let declared := bindingType (← get).hierarchy current written
      let init ← inferInit current declared.expected? init
      let scope ← openScope
      match ((← get).tree.locals scope).head?, init with
      | some id, some (_, type) => observeValue id type
      | _, _ => pure ()
      let (bindings, body, type) ← inferBindings current bindings body
      closeScope
      return (⟨name, written, init.map Prod.fst⟩ :: bindings, body, type)

/-- Infers the initializer of a binding, if there is one. -/
def inferInit (current : TypeId) (hint : Option TypeId) :
    Option Expr → Inference (Option (Expr × TypeId))
  | none => return none
  | some init => do
      let init ← infer current hint init
      return some init

/-- Infers branches in order; `type` is the union of the types of those before them. -/
def inferBranches (current : TypeId) (hint type : Option TypeId) :
    List (Branch Expr) → Inference (List (Branch Expr) × Option TypeId)
  | [] => return ([], type)
  | ⟨name, written, body⟩ :: branches => do
      let _ ← openScope
      let (body, bodyType) ← infer current hint body
      closeScope
      let hierarchy := (← get).hierarchy
      let type := type.elim bodyType fun type => hierarchy.union type bodyType
      let (branches, type) ← inferBranches current hint (some type) branches
      return (⟨name, written, body⟩ :: branches, type)

end

/-- The value of an initializer flows into its attribute, unless that is a redefinition. -/
def inferAttribute (current : TypeId) (classScope : ScopeId) (decl : AttributeDecl) :
    Inference AttributeDecl := do
  match decl.init with
  | none => return decl
  | some init =>
      let state ← get
      let id := state.tree.find? classScope decl.name.name
      let hint := id.bind fun id => (state.tree.variableAt id).type.expected?
      let (init, type) ← infer current hint init
      let info := (← get).hierarchy.info current
      match id, info.attributeAt? decl.name.name decl.name.position with
      | some id, some _ => observeValue id type
      | _, _ => pure ()
      return { decl with init := some init }

/-- The signature of a method learns from the parameters and from the value of the body, unless the
method is a redefinition. -/
def inferMethod (current : TypeId) (scope : ScopeId) (decl : MethodDecl) :
    Inference MethodDecl := do
  let state ← get
  let params := (state.tree.locals scope).drop 1
  match (state.hierarchy.info current).methodAt? decl.name.name decl.name.position with
  | some known =>
      mergeParams current decl.name.name 0 params
      let (body, type) ← infer current (known.result.type.resolveIn current).expected? decl.body
      mergeParams current decl.name.name 0 params
      observeResult current decl.name.name type
      return { decl with body := body }
  | none =>
      let result := (state.hierarchy.find? decl.result.name).getD .error
      let (body, _) ← infer current (result.resolveIn current).expected? decl.body
      return { decl with body := body }

def inferFeature (current : TypeId) (classScope : ScopeId) (feature : Feature) :
    Inference Feature := do
  let scope ← openScope
  let feature ← match feature with
    | .attribute decl => do
        let decl ← inferAttribute current classScope decl
        pure (Feature.attribute decl)
    | .method decl => do
        let decl ← inferMethod current scope decl
        pure (Feature.method decl)
  closeScope
  return feature

def inferFeatures (current : TypeId) (classScope : ScopeId) :
    List Feature → Inference (List Feature)
  | [] => return []
  | feature :: features => do
      let feature ← inferFeature current classScope feature
      let features ← inferFeatures current classScope features
      return feature :: features

def inferClass (current : TypeId) (decl : ClassDecl) : Inference ClassDecl := do
  let scope ← openScope
  let features ← inferFeatures current scope decl.features
  recordAttributes current scope
  closeScope
  return { decl with features := features }

/-- Infers the classes that have a type. -/
def inferClasses : List ClassDecl → ClassTypes → Inference (List ClassDecl)
  | decl :: decls, none :: types => do
      let decls ← inferClasses decls types
      return decl :: decls
  | decl :: decls, some type :: types => do
      let decl ← inferClass type decl
      let decls ← inferClasses decls types
      return decl :: decls
  | decls, _ => return decls

/-- Walks over a program once. -/
def walk (types : ClassTypes) (program : Program) : Inference Program := do
  beginWalk
  let classes ← inferClasses program.classes types
  endWalk
  return ⟨classes⟩

end Inference

end CoolLang
