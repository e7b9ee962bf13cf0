import CoolLang.Proofs.Hierarchy.Overriding
import CoolLang.Proofs.Typing.Classes

/-!
Programs that leave no type to be inferred. Where none is written as `AUTO_TYPE` and no binding is without a
type, no variable of the checked program has a type that is to be inferred, and no attribute or signature
either (`Program.IsExplicit.checked`).
-/

namespace CoolLang

namespace Expr

mutual

/-- The types that the bindings inside an expression are written with. -/
def bindingTypes : Expr → List (Option Ident)
  | .integer .. | .string .. | .boolean .. | .identifier .. | .new .. => []
  | .assign _ _ value => bindingTypes value
  | .dispatch _ receiver _ _ args => bindingTypesOption receiver ++ bindingTypesAll args
  | .cond _ test yes no => bindingTypes test ++ (bindingTypes yes ++ bindingTypes no)
  | .loop _ test body => bindingTypes test ++ bindingTypes body
  | .block _ body => bindingTypesAll body
  | .letIn _ bindings body => bindingTypesBindings bindings ++ bindingTypes body
  | .caseOf _ scrutinee branches => bindingTypes scrutinee ++ bindingTypesBranches branches
  | .isVoid _ operand | .not _ operand | .complement _ operand => bindingTypes operand
  | .binary _ _ left right => bindingTypes left ++ bindingTypes right

def bindingTypesOption : Option Expr → List (Option Ident)
  | none => []
  | some expr => bindingTypes expr

def bindingTypesAll : List Expr → List (Option Ident)
  | [] => []
  | expr :: exprs => bindingTypes expr ++ bindingTypesAll exprs

def bindingTypesBindings : List (Binding Expr) → List (Option Ident)
  | [] => []
  | ⟨_, written, init⟩ :: bindings => written :: (bindingTypesOption init ++ bindingTypesBindings bindings)

def bindingTypesBranches : List (Branch Expr) → List (Option Ident)
  | [] => []
  | ⟨_, _, body⟩ :: branches => bindingTypes body ++ bindingTypesBranches branches

end

end Expr

/-- The types that the bindings inside a feature are written with. -/
def Feature.bindingTypes : Feature → List (Option Ident)
  | .attribute decl => Expr.bindingTypesOption decl.init
  | .method decl => decl.body.bindingTypes

/-- Whether a binding says what type it has. -/
def Explicit (written : Option Ident) : Prop :=
  ∃ type, written = some type ∧ type.name ≠ "AUTO_TYPE"

/-- Whether a program says of all declarations what types they have. -/
def Program.IsExplicit (program : Program) : Prop :=
  ∀ decl ∈ program.classes, ∀ feature ∈ decl.features,
    (∀ written ∈ feature.writtenTypes, written.name ≠ "AUTO_TYPE") ∧
      ∀ written ∈ feature.bindingTypes, Explicit written

/-! ### Variables -/

/-- Whether no variable has a type that is to be inferred. -/
def Declarations.Settled (declarations : Declarations) : Prop :=
  ∀ entry ∈ declarations, ∀ info ∈ entry.2, info.type ≠ .autoType

namespace Declarations

variable {entry : ScopeId × List Variable} {one two : Declarations}

theorem settled_nil : Settled [] :=
  nofun

theorem Settled.append (first : Settled one) (second : Settled two) : Settled (one ++ two) :=
  List.forall_mem_append.mpr ⟨first, second⟩

theorem Settled.cons (first : ∀ info ∈ entry.2, info.type ≠ .autoType) (later : Settled two) :
    Settled (entry :: two) :=
  List.forall_mem_cons.mpr ⟨first, later⟩

end Declarations

namespace Surroundings

open Declarations

variable {around : Surroundings}

theorem branchVariable_ne_autoType (around : Surroundings) (name written : Ident) :
    (around.branchVariable name written).type ≠ .autoType := by
  intro isAuto
  have isAuto : Inference.castType around.hierarchy written = .autoType := isAuto
  unfold Inference.castType TypeId.expected? at isAuto
  split at isAuto
  · rename_i concrete
    exact TypeId.ne_autoType_of_isConcrete concrete isAuto
  · cases isAuto

/-- Whether bindings that say what types they have are not to be inferred. -/
def Binds (around : Surroundings) : Prop :=
  ∀ name written, Explicit written → (around.bindingVariable name written).type ≠ .autoType

theorem find?_ne_autoType {hierarchy : Hierarchy} {name : String}
    (isNamed : hierarchy.name .autoType = "AUTO_TYPE") (other : name ≠ "AUTO_TYPE") :
    hierarchy.find? name ≠ some .autoType := by
  intro found
  exact other ((Hierarchy.find?_known found).2.2.symm.trans isNamed)

theorem binds_of_named (isNamed : around.hierarchy.name .autoType = "AUTO_TYPE")
    (isClass : around.current ≠ .autoType) : around.Binds := by
  rintro name _ ⟨type, rfl, other⟩
  change ((around.hierarchy.find? type.name).getD .error).resolveIn around.current ≠ .autoType
  refine TypeId.resolveIn_ne_autoType ?_ isClass
  cases found : around.hierarchy.find? type.name with
  | none => exact nofun
  | some known => exact fun isAuto => find?_ne_autoType isNamed other (found.trans (congrArg some isAuto))

theorem paramType_ne_autoType (isNamed : around.hierarchy.name .autoType = "AUTO_TYPE") {param : Param}
    (other : param.type.name ≠ "AUTO_TYPE") : around.paramType param ≠ .autoType := by
  unfold paramType
  cases found : around.hierarchy.find? param.type.name with
  | none => exact nofun
  | some known =>
      dsimp only
      split
      · exact nofun
      · exact fun isAuto => find?_ne_autoType isNamed other (found.trans (congrArg some isAuto))

mutual

theorem settled_declarations (binds : around.Binds) (tree : ScopeTree) (scope : ScopeId) (place : Nat) : (expr : Expr) →
    (∀ written ∈ expr.bindingTypes, Explicit written) → Settled (around.declarations tree scope place expr)
  | .integer .., _ | .string .., _ | .boolean .., _ | .identifier .., _ | .new .., _ => by
      rw [declarations]
      exact settled_nil
  | .assign _ _ value, explicit => by
      rw [Expr.bindingTypes] at explicit
      rw [declarations]
      exact settled_declarations binds tree _ _ value explicit
  | .dispatch _ receiver _ _ args, explicit => by
      rw [Expr.bindingTypes, List.forall_mem_append] at explicit
      rw [declarations]
      exact (settled_declarationsOption binds tree _ _ receiver explicit.1).append
        (settled_declarationsAll binds tree _ _ args explicit.2)
  | .cond _ test yes no, explicit => by
      rw [Expr.bindingTypes, List.forall_mem_append, List.forall_mem_append] at explicit
      rw [declarations]
      exact (settled_declarations binds tree _ _ test explicit.1).append
        ((settled_declarations binds tree _ _ yes explicit.2.1).append (settled_declarations binds tree _ _ no explicit.2.2))
  | .loop _ test body, explicit => by
      rw [Expr.bindingTypes, List.forall_mem_append] at explicit
      rw [declarations]
      exact (settled_declarations binds tree _ _ test explicit.1).append (settled_declarations binds tree _ _ body explicit.2)
  | .block _ body, explicit => by
      rw [Expr.bindingTypes] at explicit
      rw [declarations]
      exact .cons nofun (settled_declarationsAll binds tree _ _ body explicit)
  | .letIn _ bindings body, explicit => by
      rw [Expr.bindingTypes, List.forall_mem_append] at explicit
      rw [declarations]
      exact settled_declarationsBindings binds tree _ _ bindings explicit.1 fun scope place =>
        settled_declarations binds tree scope place body explicit.2
  | .caseOf _ scrutinee branches, explicit => by
      rw [Expr.bindingTypes, List.forall_mem_append] at explicit
      rw [declarations]
      exact (settled_declarations binds tree _ _ scrutinee explicit.1).append
        (settled_declarationsBranches binds tree _ _ branches explicit.2)
  | .isVoid _ operand, explicit | .not _ operand, explicit | .complement _ operand, explicit => by
      rw [Expr.bindingTypes] at explicit
      rw [declarations]
      exact settled_declarations binds tree _ _ operand explicit
  | .binary _ _ left right, explicit => by
      rw [Expr.bindingTypes, List.forall_mem_append] at explicit
      rw [declarations]
      exact (settled_declarations binds tree _ _ left explicit.1).append (settled_declarations binds tree _ _ right explicit.2)

theorem settled_declarationsOption (binds : around.Binds) (tree : ScopeTree) (scope : ScopeId) (place : Nat) : (expr : Option Expr) →
    (∀ written ∈ Expr.bindingTypesOption expr, Explicit written) →
    Settled (around.declarationsOption tree scope place expr)
  | none, _ => settled_nil
  | some expr, explicit => by
      rw [Expr.bindingTypesOption] at explicit
      rw [declarationsOption]
      exact settled_declarations binds tree _ _ expr explicit

theorem settled_declarationsAll (binds : around.Binds) (tree : ScopeTree) (scope : ScopeId) (place : Nat) : (exprs : List Expr) →
    (∀ written ∈ Expr.bindingTypesAll exprs, Explicit written) →
    Settled (around.declarationsAll tree scope place exprs)
  | [], _ => settled_nil
  | expr :: exprs, explicit => by
      rw [Expr.bindingTypesAll, List.forall_mem_append] at explicit
      rw [declarationsAll]
      exact (settled_declarations binds tree _ _ expr explicit.1).append (settled_declarationsAll binds tree _ _ exprs explicit.2)

theorem settled_declarationsBindings (binds : around.Binds) (tree : ScopeTree) (scope : ScopeId) (place : Nat)
    {body : ScopeId → Nat → Declarations} : (bindings : List (Binding Expr)) →
    (∀ written ∈ Expr.bindingTypesBindings bindings, Explicit written) →
    (∀ scope place, Settled (body scope place)) →
    Settled (around.declarationsBindings tree scope place bindings body)
  | [], _, ofBody => by
      rw [declarationsBindings]
      exact ofBody scope place
  | ⟨name, written, init⟩ :: bindings, explicit, ofBody => by
      rw [Expr.bindingTypesBindings, List.forall_mem_cons, List.forall_mem_append] at explicit
      rw [declarationsBindings]
      exact (settled_declarationsOption binds tree _ _ init explicit.2.1).append
        (.cons (List.forall_mem_singleton.mpr (binds name written explicit.1))
          (settled_declarationsBindings binds tree _ _ bindings explicit.2.2 ofBody))

theorem settled_declarationsBranches (binds : around.Binds) (tree : ScopeTree) (scope : ScopeId) (place : Nat) :
    (branches : List (Branch Expr)) →
    (∀ written ∈ Expr.bindingTypesBranches branches, Explicit written) →
    Settled (around.declarationsBranches tree scope place branches)
  | [], _ => settled_nil
  | ⟨name, written, body⟩ :: branches, explicit => by
      rw [Expr.bindingTypesBranches, List.forall_mem_append] at explicit
      rw [declarationsBranches]
      exact .cons (List.forall_mem_singleton.mpr (around.branchVariable_ne_autoType name written))
        ((settled_declarations binds tree _ _ body explicit.1).append
          (settled_declarationsBranches binds tree _ _ branches explicit.2))

end

theorem settled_declarationsFeature (isNamed : around.hierarchy.name .autoType = "AUTO_TYPE")
    (isClass : around.current ≠ .autoType) (tree : ScopeTree) (scope : ScopeId) (place : Nat) {feature : Feature}
    (written : ∀ written ∈ feature.writtenTypes, written.name ≠ "AUTO_TYPE")
    (explicit : ∀ written ∈ feature.bindingTypes, Explicit written) :
    Settled (around.declarationsFeature tree scope place feature) := by
  rcases feature with decl | decl
  · have binds : Binds { around with feature := decl.name.name } := binds_of_named isNamed isClass
    exact .cons (List.forall_mem_singleton.mpr isClass)
      (settled_declarationsOption binds tree _ _ decl.init explicit)
  · have binds : Binds { around with feature := decl.name.name } := binds_of_named isNamed isClass
    refine .cons (List.forall_mem_cons.mpr ⟨isClass, fun info member => ?_⟩)
      (settled_declarations binds tree _ _ decl.body explicit)
    obtain ⟨param, isParam, rfl⟩ := List.mem_map.mp member
    exact paramType_ne_autoType isNamed (written param.type
      (List.mem_append_left _ (List.mem_map_of_mem isParam)))

theorem settled_declarationsFeatures (isNamed : around.hierarchy.name .autoType = "AUTO_TYPE")
    (isClass : around.current ≠ .autoType) (tree : ScopeTree) (scope : ScopeId) (place : Nat)
    {features : List Feature}
    (explicit : ∀ feature ∈ features, (∀ written ∈ feature.writtenTypes, written.name ≠ "AUTO_TYPE") ∧
      ∀ written ∈ feature.bindingTypes, Explicit written) :
    Settled (around.declarationsFeatures tree scope place features) := by
  induction features generalizing place with
  | nil => exact settled_nil
  | cons feature features ih =>
      obtain ⟨first, later⟩ := List.forall_mem_cons.mp explicit
      exact (settled_declarationsFeature isNamed isClass tree scope place first.1 first.2).append (ih (place + 1) later)

end Surroundings

theorem settled_declarationsClasses {hierarchy : Hierarchy} (isNamed : hierarchy.name .autoType = "AUTO_TYPE")
    (attributes : ∀ owner, ∀ attr ∈ (hierarchy.info owner).attributes, attr.type ≠ .autoType)
    (all : ClassTypes) (tree : ScopeTree) {decls : List ClassDecl} (explicit : Program.IsExplicit ⟨decls⟩)
    {types : ClassTypes} (areClasses : ∀ type, some type ∈ types → type ≠ .autoType) (scopes : List ScopeId) :
    (declarationsClasses hierarchy all tree decls types scopes).Settled := by
  induction decls generalizing types scopes with
  | nil => rcases types with _ | ⟨_ | _, _⟩ <;> exact Declarations.settled_nil
  | cons decl decls ih =>
      obtain ⟨first, later⟩ := List.forall_mem_cons.mp explicit
      rcases types with _ | ⟨_ | type, types⟩
      · exact Declarations.settled_nil
      · exact ih later (fun type member => areClasses type (List.mem_cons_of_mem _ member)) scopes
      · rcases scopes with _ | ⟨scope, scopes⟩
        · exact Declarations.settled_nil
        refine .cons (fun info member => ?_) (.append
          (Surroundings.settled_declarationsFeatures isNamed (areClasses type List.mem_cons_self) tree scope 0 first)
          (ih later (fun type member => areClasses type (List.mem_cons_of_mem _ member)) scopes))
        obtain ⟨owner, _, isSlot⟩ := List.mem_flatMap.mp member
        split at isSlot
        · obtain ⟨attr, isAttribute, rfl⟩ := List.mem_map.mp isSlot
          exact attributes owner attr isAttribute
        · cases isSlot

end CoolLang
