import CoolLang.Analysis.Basic
import CoolLang.Typing.Survey

/-!
Programs with the inferred types written out. What a program leaves to inference is written with the name of the type
that has been found for it: a binding or a parameter with that of its variable, the first attribute or method of its
name in a class with that of its signature (`Analysis.annotated`). Classes that have no type stay as they are.
-/

namespace CoolLang

/-- With a name where the type is left to inference. -/
def Ident.filledIn (written : Ident) (name : String) : Ident :=
  if written.name = "AUTO_TYPE" then { written with name := name } else written

/-- The type of the variable at a place in a scope; the error type where there is none. -/
def ScopeTree.typeAt (tree : ScopeTree) (scope : ScopeId) (place : Nat) : TypeId :=
  (tree.slots scope)[place]?.elim .error Variable.type

/-- Whether two attributes or two methods have the same name. -/
def Feature.IsNamesake : Feature → Feature → Prop
  | .attribute one, .attribute two => one.name.name = two.name.name
  | .method one, .method two => one.name.name = two.name.name
  | _, _ => False

/-- Whether what is known of a type has come from a feature of its class. -/
def TypeInfo.ComesFrom (info : TypeInfo) : Feature → Prop
  | .attribute decl => (info.attributeAt? decl.name.name decl.name.position).isSome
  | .method decl => (info.methodAt? decl.name.name decl.name.position).isSome

namespace Analysis

variable (analysis : Analysis)

/-- The name of the type of the variable at a place in a scope. -/
def typeNameAt (scope : ScopeId) (place : Nat) : String :=
  analysis.hierarchy.name (analysis.tree.typeAt scope place)

mutual

/-- An expression with the types of its bindings written out. Its scopes begin at a place among the children of its
own scope. -/
def annotate (scope : ScopeId) (place : Nat) : Expr → Expr
  | .integer note value => .integer note value
  | .string note value => .string note value
  | .boolean note value => .boolean note value
  | .identifier note name => .identifier note name
  | .new note written => .new note written
  | .assign note target value => .assign note target (annotate scope place value)
  | .dispatch note receiver cast method args =>
      .dispatch note (annotateOption scope place receiver) cast method
        (annotateAll scope (place + (Expr.nestsOption receiver).length) args)
  | .cond note test yes no =>
      .cond note (annotate scope place test) (annotate scope (place + test.nests.length) yes)
        (annotate scope (place + test.nests.length + yes.nests.length) no)
  | .loop note test body =>
      .loop note (annotate scope place test) (annotate scope (place + test.nests.length) body)
  | .block note body => .block note (annotateAll (analysis.tree.child scope place) 0 body)
  | .letIn note bindings body =>
      let annotated := annotateBindings scope place bindings fun scope place => annotate scope place body
      .letIn note annotated.1 annotated.2
  | .caseOf note scrutinee branches =>
      .caseOf note (annotate scope place scrutinee)
        (annotateBranches scope (place + scrutinee.nests.length) branches)
  | .isVoid note operand => .isVoid note (annotate scope place operand)
  | .not note operand => .not note (annotate scope place operand)
  | .complement note operand => .complement note (annotate scope place operand)
  | .binary note operator left right =>
      .binary note operator (annotate scope place left) (annotate scope (place + left.nests.length) right)

def annotateOption (scope : ScopeId) (place : Nat) : Option Expr → Option Expr
  | none => none
  | some expr => some (annotate scope place expr)

def annotateAll (scope : ScopeId) (place : Nat) : List Expr → List Expr
  | [] => []
  | expr :: exprs => annotate scope place expr :: annotateAll scope (place + expr.nests.length) exprs

/-- A type that is left out is written at the position of the name. -/
def annotateBindings (scope : ScopeId) (place : Nat) (bindings : List (Binding Expr)) (body : ScopeId → Nat → Expr) :
    List (Binding Expr) × Expr :=
  match bindings with
  | [] => ([], body scope place)
  | ⟨name, written, init⟩ :: bindings =>
      let inner := analysis.tree.child scope (place + (Expr.nestsOption init).length)
      let written := (written.getD ⟨"AUTO_TYPE", name.position⟩).filledIn (analysis.typeNameAt inner 0)
      let later := annotateBindings inner 0 bindings body
      (⟨name, some written, annotateOption scope place init⟩ :: later.1, later.2)

def annotateBranches (scope : ScopeId) (place : Nat) : List (Branch Expr) → List (Branch Expr)
  | [] => []
  | ⟨name, written, body⟩ :: branches =>
      ⟨name, written, annotate (analysis.tree.child scope place) 0 body⟩ :: annotateBranches scope (place + 1) branches

end

/-- Parameters with the types of their variables, of which the first has that place in the scope of the method. -/
def annotateParams (scope : ScopeId) : Nat → List Param → List Param
  | _, [] => []
  | place, param :: params =>
      { param with type := param.type.filledIn (analysis.typeNameAt scope place) } ::
        annotateParams scope (place + 1) params

/-- An attribute of a class. Its type is written out unless an attribute of its name comes before it in the class. -/
def annotateAttribute (current : TypeId) (scope : ScopeId) (decl : AttributeDecl) : AttributeDecl :=
  { decl with
    type := ((analysis.hierarchy.info current).attributeAt? decl.name.name decl.name.position).elim decl.type
      fun attr => decl.type.filledIn (analysis.hierarchy.name attr.type)
    init := analysis.annotateOption scope 0 decl.init }

/-- A method of a class. The type of its result is written out unless a method of its name comes before it in the
class. -/
def annotateMethod (current : TypeId) (scope : ScopeId) (decl : MethodDecl) : MethodDecl :=
  { decl with
    params := analysis.annotateParams scope 1 decl.params
    result := ((analysis.hierarchy.info current).methodAt? decl.name.name decl.name.position).elim decl.result
      fun method => decl.result.filledIn (analysis.hierarchy.name method.result.type)
    body := analysis.annotate scope 0 decl.body }

def annotateFeature (current : TypeId) (scope : ScopeId) : Feature → Feature
  | .attribute decl => .attribute (analysis.annotateAttribute current scope decl)
  | .method decl => .method (analysis.annotateMethod current scope decl)

/-- Features of a class, of which the first has the scope at that place in the scope of the class. -/
def annotateFeatures (current : TypeId) (scope : ScopeId) : Nat → List Feature → List Feature
  | _, [] => []
  | place, feature :: features =>
      analysis.annotateFeature current (analysis.tree.child scope place) feature ::
        annotateFeatures current scope (place + 1) features

/-- Classes, of which the first that has a type has the scope at that place below the root. -/
def annotateClasses : Nat → List ClassDecl → ClassTypes → List ClassDecl
  | place, decl :: decls, none :: types => decl :: annotateClasses place decls types
  | place, decl :: decls, some type :: types =>
      { decl with
        features := analysis.annotateFeatures type (analysis.tree.child ScopeTree.root place) 0 decl.features } ::
        annotateClasses (place + 1) decls types
  | _, decls, _ => decls

/-- A program with the types written out that the analysis has found for what it leaves to inference. -/
def annotated (program : Program) : Program :=
  ⟨analysis.annotateClasses 0 program.classes analysis.types⟩

end Analysis

end CoolLang
