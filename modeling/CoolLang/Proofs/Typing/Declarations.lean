import CoolLang.Inference.Walk
import CoolLang.Proofs.Scope.Sight

/-!
Where a program declares its variables. In a scope tree that has the scopes of an expression, each of
these is at a place that the syntax tells, and so are the variables that are declared in it. Which scopes
these are depends on the scopes of the tree only, and not on what is known of its variables.
-/

namespace CoolLang

/-- What is declared in scopes of a tree. -/
abbrev Declarations := List (ScopeId × List Variable)

namespace Surroundings

/-- The variable of a branch of a `case`. -/
def branchVariable (around : Surroundings) (name written : Ident) : Variable :=
  .declared name.name (Inference.castType around.hierarchy written)

/-- The variable of a binding. -/
def bindingVariable (around : Surroundings) (name : Ident) (written : Option Ident) : Variable :=
  .declared name.name (Inference.bindingType around.hierarchy around.current written)

variable (around : Surroundings) (tree : ScopeTree)

mutual

/-- What an expression declares whose scopes begin at a place in a scope. -/
def declarations (scope : ScopeId) (place : Nat) : Expr → Declarations
  | .integer .. | .string .. | .boolean .. | .identifier .. | .new .. => []
  | .assign _ _ value => declarations scope place value
  | .dispatch _ receiver _ _ args =>
      declarationsOption scope place receiver ++
        declarationsAll scope (place + (Expr.nestsOption receiver).length) args
  | .cond _ test yes no =>
      declarations scope place test ++
        (declarations scope (place + test.nests.length) yes ++
          declarations scope (place + test.nests.length + yes.nests.length) no)
  | .loop _ test body =>
      declarations scope place test ++ declarations scope (place + test.nests.length) body
  | .block _ body =>
      (tree.child scope place, []) :: declarationsAll (tree.child scope place) 0 body
  | .letIn _ bindings body =>
      declarationsBindings scope place bindings fun scope place => declarations scope place body
  | .caseOf _ scrutinee branches =>
      declarations scope place scrutinee ++
        declarationsBranches scope (place + scrutinee.nests.length) branches
  | .isVoid _ operand | .not _ operand | .complement _ operand => declarations scope place operand
  | .binary _ _ left right =>
      declarations scope place left ++ declarations scope (place + left.nests.length) right

def declarationsOption (scope : ScopeId) (place : Nat) : Option Expr → Declarations
  | none => []
  | some expr => declarations scope place expr

def declarationsAll (scope : ScopeId) (place : Nat) : List Expr → Declarations
  | [] => []
  | expr :: exprs =>
      declarations scope place expr ++ declarationsAll scope (place + expr.nests.length) exprs

def declarationsBindings (scope : ScopeId) (place : Nat) (bindings : List (Binding Expr))
    (body : ScopeId → Nat → Declarations) : Declarations :=
  match bindings with
  | [] => body scope place
  | ⟨name, written, init⟩ :: bindings =>
      declarationsOption scope place init ++
        (tree.child scope (place + (Expr.nestsOption init).length),
          [around.bindingVariable name written]) ::
        declarationsBindings (tree.child scope (place + (Expr.nestsOption init).length)) 0 bindings body

def declarationsBranches (scope : ScopeId) (place : Nat) : List (Branch Expr) → Declarations
  | [] => []
  | ⟨name, written, body⟩ :: branches =>
      (tree.child scope place, [around.branchVariable name written]) ::
        (declarations (tree.child scope place) 0 body ++ declarationsBranches scope (place + 1) branches)

end

/-! ### Trees of the same scopes -/

section

variable {around : Surroundings} {one two : ScopeTree}

mutual

theorem declarations_congr (same : one.child = two.child) (scope : ScopeId) (place : Nat) : (expr : Expr) →
    around.declarations one scope place expr = around.declarations two scope place expr
  | .integer .. | .string .. | .boolean .. | .identifier .. | .new .. => by simp only [declarations]
  | .assign _ _ value => by simp only [declarations, declarations_congr same _ _ value]
  | .dispatch _ receiver _ _ args => by
      simp only [declarations, declarationsOption_congr same _ _ receiver, declarationsAll_congr same _ _ args]
  | .cond _ test yes no => by
      simp only [declarations, declarations_congr same _ _ test, declarations_congr same _ _ yes,
        declarations_congr same _ _ no]
  | .loop _ test body => by
      simp only [declarations, declarations_congr same _ _ test, declarations_congr same _ _ body]
  | .block _ body => by simp only [declarations, same, declarationsAll_congr same _ _ body]
  | .letIn _ bindings body => by
      simp only [declarations, declarationsBindings_congr same
        (fun scope place => declarations_congr same scope place body) _ _ bindings]
  | .caseOf _ scrutinee branches => by
      simp only [declarations, declarations_congr same _ _ scrutinee, declarationsBranches_congr same _ _ branches]
  | .isVoid _ operand | .not _ operand | .complement _ operand => by
      simp only [declarations, declarations_congr same _ _ operand]
  | .binary _ _ left right => by
      simp only [declarations, declarations_congr same _ _ left, declarations_congr same _ _ right]

theorem declarationsOption_congr (same : one.child = two.child) (scope : ScopeId) (place : Nat) : (expr : Option Expr) →
    around.declarationsOption one scope place expr = around.declarationsOption two scope place expr
  | none => by simp only [declarationsOption]
  | some expr => by simp only [declarationsOption, declarations_congr same _ _ expr]

theorem declarationsAll_congr (same : one.child = two.child) (scope : ScopeId) (place : Nat) : (exprs : List Expr) →
    around.declarationsAll one scope place exprs = around.declarationsAll two scope place exprs
  | [] => by simp only [declarationsAll]
  | expr :: exprs => by
      simp only [declarationsAll, declarations_congr same _ _ expr, declarationsAll_congr same _ _ exprs]

theorem declarationsBindings_congr (same : one.child = two.child) {body body' : ScopeId → Nat → Declarations}
    (ofBody : ∀ scope place, body scope place = body' scope place) (scope : ScopeId) (place : Nat) :
    (bindings : List (Binding Expr)) →
    around.declarationsBindings one scope place bindings body =
      around.declarationsBindings two scope place bindings body'
  | [] => by simp only [declarationsBindings, ofBody]
  | ⟨_, _, init⟩ :: bindings => by
      simp only [declarationsBindings, same, declarationsOption_congr same _ _ init,
        declarationsBindings_congr same ofBody _ _ bindings]

theorem declarationsBranches_congr (same : one.child = two.child) (scope : ScopeId) (place : Nat) :
    (branches : List (Branch Expr)) →
    around.declarationsBranches one scope place branches = around.declarationsBranches two scope place branches
  | [] => by simp only [declarationsBranches]
  | ⟨_, _, body⟩ :: branches => by
      simp only [declarationsBranches, same, declarations_congr same _ _ body,
        declarationsBranches_congr same _ _ branches]

end

end

end Surroundings

end CoolLang
