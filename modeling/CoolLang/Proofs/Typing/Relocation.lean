import CoolLang.Proofs.Hierarchy.Relocation
import CoolLang.Proofs.Program.Layout
import CoolLang.Proofs.Stateful

/-!
Typing a program at other positions. Expressions have the types that they had, whether a scope tree is built or
gone over, and what is reported is reported at the other positions (`Typing.check_relocate`). Positions have to
stay apart, for an attribute or a method is known by its own (`Typing.checkFeature_relocate`).
-/

namespace CoolLang

variable {move : Position → Position}

theorem Expr.length_relocateAll (exprs : List Expr) : (relocateAll move exprs).length = exprs.length := by
  induction exprs with
  | nil => rfl
  | cons expr exprs ih => exact congrArg (· + 1) ih

def AttributeDecl.relocate (move : Position → Position) (decl : AttributeDecl) : AttributeDecl where
  name := decl.name.relocate move
  type := decl.type.relocate move
  init := decl.init.map fun init => init.relocate move

def MethodDecl.relocate (move : Position → Position) (decl : MethodDecl) : MethodDecl where
  name := decl.name.relocate move
  params := decl.params.map fun param => ⟨param.name.relocate move, param.type.relocate move⟩
  result := decl.result.relocate move
  body := decl.body.relocate move

def Surroundings.relocate (move : Position → Position) (around : Surroundings) : Surroundings :=
  { around with hierarchy := around.hierarchy.relocate move }

/-- A state in which other diagnostics have been found. -/
def TypingState.retell (tell : Diagnostic → Diagnostic) (state : TypingState) : TypingState :=
  { state with found := state.found.map tell }

namespace Surroundings

variable (around : Surroundings)

theorem alike_relocate : (around.relocate move).hierarchy.Alike around.hierarchy :=
  around.hierarchy.alike_relocate move

theorem admits_relocate (operator : Operator) (left right : TypeId) :
    (around.relocate move).admits operator left right = around.admits operator left right := by
  unfold admits comparable
  simp only [around.alike_relocate.conforms]

theorem declaredType_relocate (written : Ident) :
    (around.relocate move).declaredType (written.relocate move) = around.declaredType written := by
  unfold declaredType
  rw [around.alike_relocate.find?]
  rfl

theorem attributeType_relocate (apart : Function.Injective move) (decl : AttributeDecl) :
    (around.relocate move).attributeType (decl.relocate move) = around.attributeType decl := by
  have known : ((around.relocate move).hierarchy.info (around.relocate move).current).attributeAt?
      (decl.relocate move).name.name (decl.relocate move).name.position =
        ((around.hierarchy.info around.current).attributeAt? decl.name.name decl.name.position).map
          (Attribute.relocate move) := by
    rw [← TypeInfo.attributeAt?_relocate apart, ← Hierarchy.info_relocate]
    rfl
  unfold attributeType
  rw [known]
  cases (around.hierarchy.info around.current).attributeAt? decl.name.name decl.name.position with
  | none => exact around.declaredType_relocate decl.type
  | some attr => rfl

theorem resultType_relocate (apart : Function.Injective move) (decl : MethodDecl) :
    (around.relocate move).resultType (decl.relocate move) = around.resultType decl := by
  have known : ((around.relocate move).hierarchy.info (around.relocate move).current).methodAt?
      (decl.relocate move).name.name (decl.relocate move).name.position =
        ((around.hierarchy.info around.current).methodAt? decl.name.name decl.name.position).map
          (Method.relocate move) := by
    rw [← TypeInfo.methodAt?_relocate apart, ← Hierarchy.info_relocate]
    rfl
  unfold resultType
  rw [known]
  cases (around.hierarchy.info around.current).methodAt? decl.name.name decl.name.position with
  | none => exact around.declaredType_relocate decl.result
  | some method => rfl

theorem paramType_relocate (param : Param) :
    (around.relocate move).paramType ⟨param.name.relocate move, param.type.relocate move⟩ =
      around.paramType param := by
  unfold paramType
  rw [around.alike_relocate.find?]
  rfl

end Surroundings

namespace Typing

variable {tell : Diagnostic → Diagnostic} {around : Surroundings} {scope : ScopeId}

/-! ### Steps -/

theorem openScope_retell (parent : ScopeId) :
    Commutes (TypingState.retell tell) id (openScope parent) (openScope parent) := by
  rintro ⟨tree, _ | cursor, drift, found⟩
  · rfl
  · unfold openScope TypingState.retell
    simp only [bind, StateT.bind, get, getThe, MonadStateOf.get, StateT.get, pure]
    cases cursor.enter tree <;> rfl

theorem closeScope_retell : Commutes (TypingState.retell tell) id closeScope closeScope := by
  rintro ⟨tree, _ | cursor, drift, found⟩
  · rfl
  · unfold closeScope TypingState.retell
    simp only [bind, StateT.bind, get, getThe, MonadStateOf.get, StateT.get, pure]
    cases cursor.leave tree <;> rfl

theorem declare_retell (scope : ScopeId) (place : Nat) (info : Variable) :
    Commutes (TypingState.retell tell) id (declare scope place info) (declare scope place info) := by
  rintro ⟨tree, _ | cursor, drift, found⟩
  · rfl
  · unfold declare TypingState.retell
    simp only [bind, StateT.bind, get, getThe, MonadStateOf.get, StateT.get, pure]
    cases (tree.locals scope)[place]? <;> rfl

theorem lookUp_retell (scope : ScopeId) (name : String) :
    Commutes (TypingState.retell tell) id (lookUp scope name) (lookUp scope name) :=
  fun _ => rfl

section

variable (tells : Tells move tell)
include tells

theorem report_retell (position : Position) {problem : Problem} (notMain : problem ≠ .missingMain) :
    Commutes (TypingState.retell tell) id (report position problem) (report (move position) problem) := by
  refine Commutes.modify fun state => ?_
  rw [← tells position problem notMain]
  exact congrArg (TypingState.mk state.tree state.cursor state.drift) (Array.map_push ..).symm

theorem expectConforming_relocate (type expected : TypeId) (position : Position) :
    Commutes (TypingState.retell tell) id (expectConforming around type expected position)
      (expectConforming (around.relocate move) type expected (move position)) := by
  unfold expectConforming
  rw [around.alike_relocate.conforms, around.alike_relocate.name, around.alike_relocate.name]
  split
  · exact report_retell tells position Problem.noConfusion
  · exact .pure rfl

theorem typeOfName_relocate (scope : ScopeId) (name : String) (position : Position) :
    Commutes (TypingState.retell tell) id (typeOfName around scope name position)
      (typeOfName (around.relocate move) scope name (move position)) := by
  refine (lookUp_retell scope name).bind fun found => ?_
  cases found with
  | some info => exact .pure rfl
  | none => exact (report_retell tells position Problem.noConfusion).bind fun _ => .pure rfl

theorem checkTarget_relocate (scope : ScopeId) (target : Ident) (type : TypeId) (position : Position) :
    Commutes (TypingState.retell tell) id (checkTarget around scope target type position)
      (checkTarget (around.relocate move) scope (target.relocate move) type (move position)) := by
  unfold checkTarget
  rw [show (target.relocate move).name = target.name from rfl]
  split
  · exact report_retell tells target.position Problem.noConfusion
  · refine (lookUp_retell scope target.name).bind fun found => ?_
    cases found with
    | some info => exact expectConforming_relocate tells type (around.resolveSelf info.type) position
    | none => exact report_retell tells target.position Problem.noConfusion

theorem dispatchType_relocate (receiver : TypeId) (cast : Option Ident) :
    Commutes (TypingState.retell tell) id (dispatchType around receiver cast)
      (dispatchType (around.relocate move) receiver (cast.map fun written => written.relocate move)) := by
  cases cast with
  | none => exact .pure rfl
  | some written =>
      unfold dispatchType
      dsimp only [Option.map_some, Ident.relocate]
      rw [around.alike_relocate.get]
      cases around.hierarchy.get written.name with
      | error error =>
          exact (report_retell tells written.position error.problem_ne_missingMain).bind fun _ => .pure rfl
      | ok type =>
          dsimp only
          split
          · exact (expectConforming_relocate tells receiver type written.position).bind fun _ => .pure rfl
          · exact (report_retell tells written.position Problem.noConfusion).bind fun _ => .pure rfl

theorem callee_relocate (owner : TypeId) (method : Ident) (args : Nat) :
    Commutes (TypingState.retell tell) id (callee around owner method args)
      (callee (around.relocate move) owner (method.relocate move) args) := by
  have found : (around.relocate move).hierarchy.method? owner (method.relocate move).name =
      (around.hierarchy.method? owner method.name).map (Prod.map id (Method.relocate move)) :=
    Hierarchy.method?_relocate
  unfold callee
  rw [found, around.alike_relocate.name]
  split
  · exact .pure rfl
  · cases around.hierarchy.method? owner method.name with
    | none => exact (report_retell tells method.position Problem.noConfusion).bind fun _ => .pure rfl
    | some callee =>
        obtain ⟨_, known⟩ := callee
        dsimp only [Option.map_some, Prod.map_apply, Method.relocate, Ident.relocate]
        split
        · exact .pure rfl
        · exact (report_retell tells method.position Problem.noConfusion).bind fun _ => .pure rfl

theorem bindingType_relocate (written : Option Ident) :
    Commutes (TypingState.retell tell) id (bindingType around written)
      (bindingType (around.relocate move) (written.map fun written => written.relocate move)) := by
  cases written with
  | none => exact .pure rfl
  | some written =>
      unfold bindingType
      dsimp only [Option.map_some, Ident.relocate]
      rw [around.alike_relocate.get]
      cases around.hierarchy.get written.name with
      | ok type => exact .pure rfl
      | error error =>
          exact (report_retell tells written.position error.problem_ne_missingMain).bind fun _ => .pure rfl

theorem branchType_relocate (seen : List TypeId) (written : Ident) :
    Commutes (TypingState.retell tell) id (branchType around seen written)
      (branchType (around.relocate move) seen (written.relocate move)) := by
  unfold branchType
  dsimp only [Ident.relocate]
  rw [around.alike_relocate.get]
  cases around.hierarchy.get written.name with
  | error error =>
      exact (report_retell tells written.position error.problem_ne_missingMain).bind fun _ => .pure rfl
  | ok type =>
      dsimp only
      split
      · exact (report_retell tells written.position Problem.noConfusion).bind fun _ => .pure rfl
      · split
        · exact (report_retell tells written.position Problem.noConfusion).bind fun _ => .pure rfl
        · exact .pure rfl

theorem newType_relocate (written : Ident) :
    Commutes (TypingState.retell tell) id (newType around written)
      (newType (around.relocate move) (written.relocate move)) := by
  unfold newType
  dsimp only [Ident.relocate]
  rw [around.alike_relocate.get]
  cases around.hierarchy.get written.name with
  | error error =>
      exact (report_retell tells written.position error.problem_ne_missingMain).bind fun _ => .pure rfl
  | ok type =>
      dsimp only
      split
      · exact .pure rfl
      · split
        · exact (report_retell tells written.position Problem.noConfusion).bind fun _ => .pure rfl
        · exact .pure rfl

end

/-! ### Expressions -/

mutual

theorem check_relocate (tells : Tells move tell) (scope : ScopeId) : (expr : Expr) →
    Commutes (TypingState.retell tell) (Prod.map (Expr.relocate move) id) (check around scope expr)
      (check (around.relocate move) scope (expr.relocate move))
  | .integer note value | .string note value | .boolean note value => by
      rw [Expr.relocate, check, check]
      exact .pure rfl
  | .identifier note name => by
      rw [Expr.relocate, check, check]
      exact (typeOfName_relocate tells scope name note.position).bind fun _ => .pure rfl
  | .assign note target value => by
      rw [Expr.relocate, check, check]
      refine (check_relocate tells scope value).bind fun ⟨value, type⟩ => ?_
      have isMoved : (value.relocate move).position = move value.position := value.position_relocate
      dsimp only [Prod.map_apply]
      rw [isMoved]
      exact (checkTarget_relocate tells scope target type value.position).bind fun _ => .pure rfl
  | .dispatch note receiver cast method args => by
      rw [Expr.relocate, check, check, Expr.length_relocateAll]
      exact (checkReceiver_relocate tells scope receiver).bind fun ⟨receiver, receiverType⟩ =>
        (dispatchType_relocate tells receiverType cast).bind fun owner =>
        (callee_relocate tells owner method args.length).bind fun callee =>
        (checkArgs_relocate tells scope args callee.params).bind fun args => .pure rfl
  | .cond note test yes no => by
      rw [Expr.relocate, check, check]
      refine (check_relocate tells scope test).bind fun ⟨test, testType⟩ => ?_
      dsimp only [Prod.map_apply]
      rw [Expr.position_relocate]
      refine (expectConforming_relocate tells testType .bool test.position).bind fun _ =>
        (check_relocate tells scope yes).bind fun ⟨yes, yesType⟩ =>
        (check_relocate tells scope no).bind fun ⟨no, noType⟩ => .pure ?_
      dsimp only [id]
      rw [around.alike_relocate.union]
      rfl
  | .loop note test body => by
      rw [Expr.relocate, check, check]
      refine (check_relocate tells scope test).bind fun ⟨test, testType⟩ => ?_
      dsimp only [Prod.map_apply]
      rw [Expr.position_relocate]
      exact (expectConforming_relocate tells testType .bool test.position).bind fun _ =>
        (check_relocate tells scope body).bind fun ⟨body, _⟩ => .pure rfl
  | .block note body => by
      rw [Expr.relocate, check, check]
      exact (openScope_retell scope).bind fun inner =>
        (checkAll_relocate tells inner .object body).bind fun ⟨body, type⟩ =>
        closeScope_retell.bind fun _ => .pure rfl
  | .letIn note bindings body => by
      rw [Expr.relocate, check, check]
      exact (checkBindings_relocate tells scope (fun inner => check_relocate tells inner body) bindings).bind
        fun ⟨bindings, body, type⟩ => .pure rfl
  | .caseOf note scrutinee branches => by
      rw [Expr.relocate, check, check]
      exact (check_relocate tells scope scrutinee).bind fun ⟨scrutinee, _⟩ =>
        (checkBranches_relocate tells scope [] none branches).bind fun ⟨branches, type⟩ => .pure rfl
  | .new note written => by
      rw [Expr.relocate, check, check]
      exact (newType_relocate tells written).bind fun type => .pure rfl
  | .isVoid note operand => by
      rw [Expr.relocate, check, check]
      exact (check_relocate tells scope operand).bind fun ⟨operand, _⟩ => .pure rfl
  | .not note operand | .complement note operand => by
      rw [Expr.relocate, check, check]
      refine (check_relocate tells scope operand).bind fun ⟨operand, operandType⟩ => ?_
      dsimp only [Prod.map_apply]
      rw [Expr.position_relocate]
      exact (expectConforming_relocate tells operandType _ operand.position).bind fun _ => .pure rfl
  | .binary note operator left right => by
      rw [Expr.relocate, check, check]
      refine (check_relocate tells scope left).bind fun ⟨left, leftType⟩ =>
        (check_relocate tells scope right).bind fun ⟨right, rightType⟩ => ?_
      simp only [Prod.map_apply, id, around.admits_relocate, around.alike_relocate.name]
      split
      · exact (report_retell tells note.position Problem.noConfusion).bind fun _ => .pure rfl
      · exact .pure rfl

theorem checkReceiver_relocate (tells : Tells move tell) (scope : ScopeId) : (receiver : Option Expr) →
    Commutes (TypingState.retell tell) (Prod.map (Expr.relocateOption move) id) (checkReceiver around scope receiver)
      (checkReceiver (around.relocate move) scope (Expr.relocateOption move receiver))
  | none => .pure rfl
  | some receiver => (check_relocate tells scope receiver).bind fun ⟨_, _⟩ => .pure rfl

theorem checkArgs_relocate (tells : Tells move tell) (scope : ScopeId) :
    (args : List Expr) → (params : List TypeId) →
    Commutes (TypingState.retell tell) (Expr.relocateAll move) (checkArgs around scope args params)
      (checkArgs (around.relocate move) scope (Expr.relocateAll move args) params)
  | [], _ => .pure rfl
  | arg :: args, params => by
      rw [Expr.relocateAll, checkArgs, checkArgs]
      refine (check_relocate tells scope arg).bind fun ⟨arg, type⟩ => ?_
      dsimp only [Prod.map_apply, id]
      rw [Expr.position_relocate]
      cases params.head? with
      | none => exact (checkArgs_relocate tells scope args params.tail).bind fun args => .pure rfl
      | some param => exact (expectConforming_relocate tells type param arg.position).bind fun _ =>
          (checkArgs_relocate tells scope args params.tail).bind fun args => .pure rfl

theorem checkAll_relocate (tells : Tells move tell) (scope : ScopeId) (last : TypeId) : (exprs : List Expr) →
    Commutes (TypingState.retell tell) (Prod.map (Expr.relocateAll move) id) (checkAll around scope last exprs)
      (checkAll (around.relocate move) scope last (Expr.relocateAll move exprs))
  | [] => .pure rfl
  | expr :: exprs => by
      rw [Expr.relocateAll, checkAll, checkAll]
      exact (check_relocate tells scope expr).bind fun ⟨expr, type⟩ =>
        (checkAll_relocate tells scope type exprs).bind fun ⟨exprs, type⟩ => .pure rfl

theorem checkBindings_relocate (tells : Tells move tell) (scope : ScopeId)
    {body body' : ScopeId → Typing (Expr × TypeId)}
    (same : ∀ inner,
      Commutes (TypingState.retell tell) (Prod.map (Expr.relocate move) id) (body inner) (body' inner)) :
    (bindings : List (Binding Expr)) →
    Commutes (TypingState.retell tell) (Prod.map (Expr.relocateBindings move) (Prod.map (Expr.relocate move) id))
      (checkBindings around scope bindings body)
      (checkBindings (around.relocate move) scope (Expr.relocateBindings move bindings) body')
  | [] => by
      rw [Expr.relocateBindings, checkBindings, checkBindings]
      exact (same scope).bind fun ⟨body, type⟩ => .pure rfl
  | ⟨name, written, init⟩ :: bindings => by
      rw [Expr.relocateBindings, checkBindings, checkBindings]
      refine (bindingType_relocate tells written).bind fun declared =>
        (checkInit_relocate tells scope init).bind fun init =>
        (openScope_retell scope).bind fun inner =>
        (declare_retell inner 0 (.declared name.name declared)).bind fun declared => ?_
      cases init with
      | none =>
          exact (checkBindings_relocate tells inner same bindings).bind fun ⟨bindings, body, type⟩ =>
            closeScope_retell.bind fun _ => .pure rfl
      | some init =>
          obtain ⟨init, type⟩ := init
          dsimp only [Option.map_some, Prod.map_apply, id]
          rw [Expr.position_relocate]
          exact (expectConforming_relocate tells type declared init.position).bind fun _ =>
            (checkBindings_relocate tells inner same bindings).bind fun ⟨bindings, body, type⟩ =>
            closeScope_retell.bind fun _ => .pure rfl

theorem checkInit_relocate (tells : Tells move tell) (scope : ScopeId) : (init : Option Expr) →
    Commutes (TypingState.retell tell) (Option.map (Prod.map (Expr.relocate move) id)) (checkInit around scope init)
      (checkInit (around.relocate move) scope (Expr.relocateOption move init))
  | none => .pure rfl
  | some init => (check_relocate tells scope init).bind fun _ => .pure rfl

theorem checkBranches_relocate (tells : Tells move tell) (scope : ScopeId) (seen : List TypeId)
    (type : Option TypeId) : (branches : List (Branch Expr)) →
    Commutes (TypingState.retell tell) (Prod.map (Expr.relocateBranches move) id)
      (checkBranches around scope seen type branches)
      (checkBranches (around.relocate move) scope seen type (Expr.relocateBranches move branches))
  | [] => .pure rfl
  | ⟨name, written, body⟩ :: branches => by
      rw [Expr.relocateBranches, checkBranches, checkBranches]
      refine (branchType_relocate tells seen written).bind fun ⟨declared, seen⟩ =>
        (openScope_retell scope).bind fun inner =>
        (declare_retell inner 0 (.declared name.name declared)).bind fun _ =>
        (check_relocate tells inner body).bind fun ⟨body, bodyType⟩ => closeScope_retell.bind fun _ => ?_
      dsimp only [Prod.map_apply, id]
      simp only [around.alike_relocate.union]
      exact (checkBranches_relocate tells scope seen _ branches).bind fun ⟨branches, type⟩ => .pure rfl

end

/-! ### Features and classes -/

section

variable {hierarchy : Hierarchy}

theorem declareParams_relocate (tell : Diagnostic → Diagnostic) (scope : ScopeId) (place : Nat)
    (params : List Param) :
    Commutes (TypingState.retell tell) id (declareParams around scope place params)
      (declareParams (around.relocate move) scope place
        (params.map fun param => ⟨param.name.relocate move, param.type.relocate move⟩)) := by
  induction params generalizing place with
  | nil => exact .pure rfl
  | cons param params ih =>
      rw [List.map_cons, declareParams, declareParams, around.paramType_relocate]
      exact (declare_retell scope place (.declared param.name.name (around.paramType param))).bind fun _ =>
        ih (place + 1)

variable (tells : Tells move tell) (apart : Function.Injective move)
include tells apart

theorem checkAttribute_relocate (scope : ScopeId) (decl : AttributeDecl) :
    Commutes (TypingState.retell tell) (AttributeDecl.relocate move) (checkAttribute around scope decl)
      (checkAttribute (around.relocate move) scope (decl.relocate move)) := by
  obtain ⟨name, written, init⟩ := decl
  have declared := around.attributeType_relocate apart ⟨name, written, init⟩
  unfold checkAttribute
  rw [declared]
  cases init with
  | none => exact .pure rfl
  | some init =>
      refine (check_relocate tells scope init).bind fun ⟨init, type⟩ => ?_
      dsimp only [Prod.map_apply, id]
      rw [Expr.position_relocate]
      exact (expectConforming_relocate tells type _ init.position).bind fun _ => .pure rfl

theorem checkMethod_relocate (scope : ScopeId) (decl : MethodDecl) :
    Commutes (TypingState.retell tell) (MethodDecl.relocate move) (checkMethod around scope decl)
      (checkMethod (around.relocate move) scope (decl.relocate move)) := by
  unfold checkMethod
  rw [around.resultType_relocate apart decl]
  refine (declareParams_relocate tell scope 1 decl.params).bind fun _ =>
    (check_relocate tells scope decl.body).bind fun ⟨body, type⟩ => ?_
  dsimp only [Prod.map_apply, id]
  rw [Expr.position_relocate]
  exact (expectConforming_relocate tells type _ body.position).bind fun _ => .pure rfl

theorem checkFeature_relocate (type : TypeId) (classScope : ScopeId) (feature : Feature) :
    Commutes (TypingState.retell tell) (Feature.relocate move) (checkFeature hierarchy type classScope feature)
      (checkFeature (hierarchy.relocate move) type classScope (feature.relocate move)) := by
  refine (openScope_retell classScope).bind fun scope =>
    (declare_retell scope 0 (.declared "self" type)).bind fun _ => ?_
  rcases feature with decl | decl
  · exact (@checkAttribute_relocate _ _ ⟨hierarchy, type, decl.name.name⟩ tells apart scope decl).bind fun decl =>
      (@Commutes.pure _ _ _ _ (Feature.relocate move) _ _ rfl).bind fun _ => closeScope_retell.bind fun _ => .pure rfl
  · exact (@checkMethod_relocate _ _ ⟨hierarchy, type, decl.name.name⟩ tells apart scope decl).bind fun decl =>
      (@Commutes.pure _ _ _ _ (Feature.relocate move) _ _ rfl).bind fun _ => closeScope_retell.bind fun _ => .pure rfl

theorem checkFeatures_relocate (type : TypeId) (classScope : ScopeId) (features : List Feature) :
    Commutes (TypingState.retell tell) (List.map (Feature.relocate move))
      (checkFeatures hierarchy type classScope features)
      (checkFeatures (hierarchy.relocate move) type classScope (features.map (Feature.relocate move))) := by
  induction features with
  | nil => exact .pure rfl
  | cons feature features ih =>
      exact (checkFeature_relocate tells apart type classScope feature).bind fun _ => ih.bind fun _ => .pure rfl

theorem checkClass_relocate (type : TypeId) (classScope : ScopeId) (decl : ClassDecl) :
    Commutes (TypingState.retell tell) (ClassDecl.relocate move) (checkClass hierarchy type classScope decl)
      (checkClass (hierarchy.relocate move) type classScope (decl.relocate move)) :=
  (checkFeatures_relocate tells apart type classScope decl.features).bind fun _ => .pure rfl

theorem checkClasses_relocate (decls : List ClassDecl) (types : ClassTypes) (scopes : List ScopeId) :
    Commutes (TypingState.retell tell) (List.map (ClassDecl.relocate move)) (checkClasses hierarchy decls types scopes)
      (checkClasses (hierarchy.relocate move) (decls.map (ClassDecl.relocate move)) types scopes) := by
  induction decls generalizing types scopes with
  | nil => exact .pure rfl
  | cons decl decls ih =>
      rcases types with _ | ⟨_ | type, types⟩
      · exact .pure rfl
      · exact (ih types scopes).bind fun _ => .pure rfl
      · cases scopes with
        | nil => exact .pure rfl
        | cons scope scopes =>
            exact (checkClass_relocate tells apart type scope decl).bind fun _ =>
              (ih types scopes).bind fun _ => .pure rfl

theorem verifyClasses_relocate (decls : List ClassDecl) (types : ClassTypes) :
    Commutes (TypingState.retell tell) (List.map (ClassDecl.relocate move)) (verifyClasses hierarchy decls types)
      (verifyClasses (hierarchy.relocate move) (decls.map (ClassDecl.relocate move)) types) := by
  induction decls generalizing types with
  | nil => exact .pure rfl
  | cons decl decls ih =>
      rcases types with _ | ⟨_ | type, types⟩
      · exact .pure rfl
      · exact (ih types).bind fun _ => .pure rfl
      · exact (openScope_retell ScopeTree.root).bind fun scope =>
          (checkClass_relocate tells apart type scope decl).bind fun _ => closeScope_retell.bind fun _ =>
          (ih types).bind fun _ => .pure rfl

end

end Typing

/-! ### Scopes -/

namespace ScopeTree

variable {hierarchy : Hierarchy}

theorem allocateAll_relocate (tree : ScopeTree) (attributes : List Attribute) :
    tree.allocateAll (attributes.map (Attribute.relocate move)) = tree.allocateAll attributes := by
  induction attributes generalizing tree with
  | nil => rfl
  | cons attr attributes ih =>
      rw [List.map_cons, allocateAll, allocateAll]
      dsimp only [Attribute.relocate]
      rw [ih]

theorem createClassScopes_relocate (tree : ScopeTree) (types : List TypeId) :
    createClassScopes (hierarchy.relocate move) tree types = createClassScopes hierarchy tree types := by
  induction types generalizing tree with
  | nil => rfl
  | cons type types ih =>
      have known : ((hierarchy.relocate move).info type).attributes =
          (hierarchy.info type).attributes.map (Attribute.relocate move) := by
        rw [Hierarchy.info_relocate]
        rfl
      rw [createClassScopes, createClassScopes]
      dsimp only
      rw [known, allocateAll_relocate, ih]

theorem openClasses_relocate (types : ClassTypes) :
    openClasses (hierarchy.relocate move) types = openClasses hierarchy types := by
  have seen (classes : List ClassScope) (type : TypeId) :
      visibleAttributes (hierarchy.relocate move) classes type = visibleAttributes hierarchy classes type := by
    rw [visibleAttributes, visibleAttributes, (hierarchy.alike_relocate move).ancestors]
  unfold openClasses
  rw [createClassScopes_relocate]
  simp only [seen]

end ScopeTree

namespace Program

variable {tell : Diagnostic → Diagnostic} (tells : Tells move tell) (apart : Function.Injective move)
  (program : Program) (types : ClassTypes) (hierarchy : Hierarchy)
include tells apart

theorem check_relocate : (program.relocate move).check types (hierarchy.relocate move) =
    ((program.check types hierarchy).1.relocate move, (program.check types hierarchy).2.1,
      (program.check types hierarchy).2.2.map tell) := by
  have same := @Typing.checkClasses_relocate _ _ hierarchy tells apart program.classes types
    (ScopeTree.openClasses hierarchy types).1 ⟨(ScopeTree.openClasses hierarchy types).2, none, none, #[]⟩
  rw [TypingState.retell, Array.map_empty] at same
  unfold check
  rw [ScopeTree.openClasses_relocate]
  dsimp only [StateT.run, relocate]
  rw [same]
  exact congrArg (fun found => (_, _, found)) Array.toList_map

theorem verify_relocate (tree : ScopeTree) : (program.relocate move).verify types (hierarchy.relocate move) tree =
    ((program.verify types hierarchy tree).1.relocate move, (program.verify types hierarchy tree).2.1.map tell,
      (program.verify types hierarchy tree).2.2) := by
  have same := @Typing.verifyClasses_relocate _ _ hierarchy tells apart program.classes types
    ⟨tree, some Cursor.initial, none, #[]⟩
  rw [TypingState.retell, Array.map_empty] at same
  unfold verify
  dsimp only [StateT.run, relocate]
  rw [same]
  exact congrArg (fun found => (_, found, _)) Array.toList_map

end Program

end CoolLang
