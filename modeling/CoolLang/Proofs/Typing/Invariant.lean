import CoolLang.Proofs.Hierarchy.Ancestry
import CoolLang.Proofs.Program.Notes
import CoolLang.Proofs.Stateful
import CoolLang.Typing.Check

/-!
What typing keeps. A condition on types that holds of what is declared and passes from types to their
unions holds of every static type that typing finds, as long as the states that typing goes through are
those that it needs (`Typing.Invariant.typed_check`).
-/

namespace CoolLang

namespace Typing

/-- A condition on the types of expressions, one on the types of declarations, and one on states, all of
which typing keeps. -/
structure Invariant (hierarchy : Hierarchy) (typed declared : TypeId → Prop)
    (ready : TypingState → Prop) : Prop where
  found : ∀ state found, ready state → ready { state with found := found }
  openScope : ∀ state scope, ready state → ready (openScope scope state).2
  closeScope : ∀ state, ready state → ready (closeScope state).2
  declare : ∀ state scope place info, ready state → declared info.type →
    ready (declare scope place info state).2
  /-- Variables are declared with types that are typed in every class. -/
  slot : ∀ state id current, ready state → typed current →
    typed ((state.tree.variableAt id).type.resolveIn current)
  gives : hierarchy.Gives typed
  auto : declared .autoType
  weaken : ∀ type, typed type → declared type
  written : ∀ name type, hierarchy.find? name = some type → declared type

/-- From every state that is ready, an action leads to one that is so, and returns a value with a
property. -/
abbrev Leads {α : Type} (ready : TypingState → Prop) (property : α → Prop) (action : Typing α) : Prop :=
  Consumes (fun _ : List Unit => ready) [] property action

namespace Invariant

variable {hierarchy : Hierarchy} {around : Surroundings} {typed declared : TypeId → Prop}
  {ready : TypingState → Prop} {scope : ScopeId}

/-! ### Steps -/

section

variable (kept : Invariant hierarchy typed declared ready)
include kept

theorem typed_report (position : Position) (problem : Problem) :
    Leads ready (fun _ => True) (report position problem) :=
  fun _ state isReady => ⟨kept.found state _ isReady, trivial⟩

theorem typed_fail (position : Position) (problem : Problem) :
    Leads ready typed (do
      report position problem
      return TypeId.error) :=
  (kept.typed_report position problem).bindSilent fun _ _ => .pure kept.gives.error

theorem typed_openScope (scope : ScopeId) : Leads ready (fun _ => True) (Typing.openScope scope) :=
  fun _ state isReady => ⟨kept.openScope state scope isReady, trivial⟩

theorem typed_closeScope : Leads ready (fun _ => True) Typing.closeScope :=
  fun _ state isReady => ⟨kept.closeScope state isReady, trivial⟩

theorem typed_declare (place : Nat) (name : String) {type : TypeId} (known : declared type) :
    Leads ready (fun _ => True) (Typing.declare scope place (.declared name type)) :=
  fun _ state isReady => ⟨kept.declare state scope place _ isReady known, trivial⟩

end

section

variable (kept : Invariant around.hierarchy typed declared ready)
include kept

theorem declared_resolveSelf (isClass : typed around.current) {type : TypeId} (known : declared type) :
    declared (around.resolveSelf type) := by
  unfold Surroundings.resolveSelf TypeId.resolveIn
  split
  · exact kept.weaken _ isClass
  · exact known

theorem typed_expectConforming (type expected : TypeId) (position : Position) :
    Leads ready (fun _ => True) (expectConforming around type expected position) := by
  unfold expectConforming
  split
  · exact kept.typed_report _ _
  · exact .pure trivial

theorem typed_lookUp (isClass : typed around.current) (name : String) :
    Leads ready (fun result => ∀ info ∈ result, typed (around.resolveSelf info.type))
      (lookUp scope name) := by
  intro rest state isReady
  refine ⟨isReady, fun info isInfo => ?_⟩
  obtain ⟨id, _, rfl⟩ := Option.map_eq_some_iff.mp (Option.mem_def.mp isInfo)
  exact kept.slot state id around.current isReady isClass

theorem typed_typeOfName (isClass : typed around.current) (name : String) (position : Position) :
    Leads ready typed (typeOfName around scope name position) := by
  refine (kept.typed_lookUp isClass name).bindSilent fun info known => ?_
  cases info with
  | none => exact kept.typed_fail _ _
  | some info => exact .pure (known info rfl)

theorem typed_checkTarget (isClass : typed around.current) (target : Ident) (type : TypeId)
    (position : Position) :
    Leads ready (fun _ => True) (checkTarget around scope target type position) := by
  unfold checkTarget
  split
  · exact kept.typed_report _ _
  · refine (kept.typed_lookUp isClass target.name).bindSilent fun info _ => ?_
    cases info with
    | none => exact kept.typed_report _ _
    | some info => exact kept.typed_expectConforming _ _ _

theorem typed_dispatchType {receiver : TypeId} (known : typed receiver) (cast : Option Ident) :
    Leads ready typed (dispatchType around receiver cast) := by
  unfold dispatchType
  split
  · exact .pure known
  · split
    · exact kept.typed_fail _ _
    · rename_i found
      split
      · rename_i concrete
        exact (kept.typed_expectConforming _ _ _).bindSilent fun _ _ =>
          .pure (kept.gives.written _ _ (Hierarchy.get_eq_ok.mp found) concrete)
      · exact kept.typed_fail _ _

theorem typed_callee {owner : TypeId} (known : typed owner) (method : Ident) (args : Nat) :
    Leads ready (fun callee => ∀ receiver, typed receiver → typed (callee.result receiver))
      (callee around owner method args) := by
  have failed (problem : Problem) :
      Leads ready (fun callee => ∀ receiver, typed receiver → typed (callee.result receiver)) (do
        report method.position problem
        return Callee.unknown .error) :=
    (kept.typed_report _ _).bindSilent fun _ _ => .pure fun _ _ => kept.gives.error
  unfold callee
  split
  · exact .pure fun _ _ => known
  · rename_i abstract
    have concrete : owner.isConcrete = true := by
      cases isConcrete : owner.isConcrete with
      | true => rfl
      | false => exact absurd (by rw [isConcrete]; rfl) abstract
    split
    · exact failed _
    · rename_i found
      split
      · exact .pure fun receiver ofReceiver => kept.gives.result _ _ _ _ receiver concrete found ofReceiver
      · exact failed _

theorem typed_bindingType (isClass : typed around.current) (written : Option Ident) :
    Leads ready declared (bindingType around written) := by
  unfold bindingType
  split
  · exact .pure kept.auto
  · split
    · rename_i found
      exact .pure (kept.declared_resolveSelf isClass (kept.written _ _ (Hierarchy.get_eq_ok.mp found)))
    · exact (kept.typed_report _ _).bindSilent fun _ _ =>
        .pure (kept.weaken _ kept.gives.error)

theorem typed_branchType (seen : List TypeId) (written : Ident) :
    Leads ready (fun result => declared result.1) (branchType around seen written) := by
  have failed (problem : Problem) : Leads ready (fun result => declared result.1) (do
      report written.position problem
      return (TypeId.error, seen)) :=
    (kept.typed_report _ _).bindSilent fun _ _ => .pure (kept.weaken _ kept.gives.error)
  unfold branchType
  split
  · exact failed _
  · rename_i found
    have known := kept.written _ _ (Hierarchy.get_eq_ok.mp found)
    split
    · exact failed _
    · split
      · exact (kept.typed_report _ _).bindSilent fun _ _ => .pure known
      · exact .pure known

theorem typed_newType (isClass : typed around.current) (written : Ident) :
    Leads ready typed (newType around written) := by
  unfold newType
  split
  · exact kept.typed_fail _ _
  · rename_i type found
    split
    · exact .pure isClass
    · split
      · exact kept.typed_fail _ _
      · refine .pure ?_
        rename_i notSelf notAuto
        by_cases isError : type = .error
        · exact isError ▸ kept.gives.error
        · exact kept.gives.written _ _ (Hierarchy.get_eq_ok.mp found) (by simp [TypeId.isConcrete, *])

theorem declared_paramType (param : Param) : declared (around.paramType param) := by
  unfold Surroundings.paramType
  split
  · split
    · exact kept.weaken _ kept.gives.error
    · exact kept.written _ _ ‹_›
  · exact kept.weaken _ kept.gives.error

end

/-! ### Expressions -/

mutual

theorem typed_check (kept : Invariant around.hierarchy typed declared ready)
    (isClass : typed around.current) (scope : ScopeId) : (expr : Expr) →
    Leads ready (fun result => Note.AllTyped typed result.1.notes ∧ typed result.2)
      (check around scope expr)
  | .integer note value => by
      rw [check]
      exact .pure ⟨by rw [Expr.notes]; exact .cons_typed kept.gives.int .nil, kept.gives.int⟩
  | .string note value => by
      rw [check]
      exact .pure ⟨by rw [Expr.notes]; exact .cons_typed kept.gives.string .nil, kept.gives.string⟩
  | .boolean note value => by
      rw [check]
      exact .pure ⟨by rw [Expr.notes]; exact .cons_typed kept.gives.bool .nil, kept.gives.bool⟩
  | .identifier note name => by
      rw [check]
      exact (kept.typed_typeOfName isClass name note.position).bindSilent fun type known => .pure
        ⟨by rw [Expr.notes]; exact .cons_typed known .nil, known⟩
  | .assign note target value => by
      rw [check]
      exact (typed_check kept isClass scope value).bindSilent fun ⟨value, type⟩ ⟨inside, known⟩ =>
        (kept.typed_checkTarget isClass target type _).bindSilent fun _ _ => .pure
          ⟨by rw [Expr.notes]; exact .cons_typed known inside, known⟩
  | .dispatch note receiver cast method args => by
      rw [check]
      refine (typed_checkReceiver kept isClass scope receiver).bindSilent
        fun ⟨receiver, receiverType⟩ ⟨first, ofReceiver⟩ =>
        (kept.typed_dispatchType ofReceiver cast).bindSilent fun owner ofOwner =>
        (kept.typed_callee ofOwner method args.length).bindSilent fun callee ofCallee =>
        (typed_checkArgs kept isClass scope args callee.params).bindSilent fun args later => .pure ?_
      have known := ofCallee receiverType ofReceiver
      exact ⟨by rw [Expr.notes]; exact .cons_typed known (first.append later), known⟩
  | .cond note test yes no => by
      rw [check]
      refine (typed_check kept isClass scope test).bindSilent fun ⟨test, testType⟩ ⟨first, _⟩ =>
        (kept.typed_expectConforming _ _ _).bindSilent fun _ _ =>
        (typed_check kept isClass scope yes).bindSilent fun ⟨yes, yesType⟩ ⟨second, ofYes⟩ =>
        (typed_check kept isClass scope no).bindSilent fun ⟨no, noType⟩ ⟨third, ofNo⟩ => .pure ?_
      have known := kept.gives.union ofYes ofNo
      exact ⟨by
        rw [Expr.notes]
        exact .cons_typed known (first.append (second.append third)), known⟩
  | .loop note test body => by
      rw [check]
      exact (typed_check kept isClass scope test).bindSilent fun ⟨test, testType⟩ ⟨first, _⟩ =>
        (kept.typed_expectConforming _ _ _).bindSilent fun _ _ =>
        (typed_check kept isClass scope body).bindSilent fun ⟨body, _⟩ ⟨second, _⟩ => .pure
          ⟨by rw [Expr.notes]; exact .cons_typed kept.gives.object (first.append second),
            kept.gives.object⟩
  | .block note body => by
      rw [check]
      exact (kept.typed_openScope scope).bindSilent fun inner _ =>
        (typed_checkAll kept isClass inner .object kept.gives.object body).bindSilent fun ⟨body, type⟩ ⟨inside, known⟩ =>
        kept.typed_closeScope.bindSilent fun _ _ => .pure
          ⟨by rw [Expr.notes]; exact .cons_typed known inside, known⟩
  | .letIn note bindings body => by
      rw [check]
      exact (typed_checkBindings kept isClass scope bindings
        fun scope => typed_check kept isClass scope body).bindSilent
        fun ⟨bindings, body, type⟩ ⟨first, second, known⟩ => .pure
          ⟨by rw [Expr.notes]; exact .cons_typed known (first.append second), known⟩
  | .caseOf note scrutinee branches => by
      rw [check]
      refine (typed_check kept isClass scope scrutinee).bindSilent fun ⟨scrutinee, _⟩ ⟨first, _⟩ =>
        (typed_checkBranches kept isClass scope [] none nofun branches).bindSilent
        fun ⟨branches, type⟩ ⟨second, ofBranches⟩ => .pure ?_
      have known : typed (type.getD .error) := by
        cases type with
        | none => exact kept.gives.error
        | some type => exact ofBranches type rfl
      exact ⟨by rw [Expr.notes]; exact .cons_typed known (first.append second), known⟩
  | .new note written => by
      rw [check]
      exact (kept.typed_newType isClass written).bindSilent fun type known => .pure
        ⟨by rw [Expr.notes]; exact .cons_typed known .nil, known⟩
  | .isVoid note operand => by
      rw [check]
      exact (typed_check kept isClass scope operand).bindSilent fun ⟨operand, _⟩ ⟨inside, _⟩ => .pure
        ⟨by rw [Expr.notes]; exact .cons_typed kept.gives.bool inside,
          kept.gives.bool⟩
  | .not note operand => by
      rw [check]
      exact (typed_check kept isClass scope operand).bindSilent fun ⟨operand, _⟩ ⟨inside, _⟩ =>
        (kept.typed_expectConforming _ _ _).bindSilent fun _ _ => .pure
          ⟨by rw [Expr.notes]; exact .cons_typed kept.gives.bool inside,
          kept.gives.bool⟩
  | .complement note operand => by
      rw [check]
      exact (typed_check kept isClass scope operand).bindSilent fun ⟨operand, _⟩ ⟨inside, _⟩ =>
        (kept.typed_expectConforming _ _ _).bindSilent fun _ _ => .pure
          ⟨by rw [Expr.notes]; exact .cons_typed kept.gives.int inside,
          kept.gives.int⟩
  | .binary note operator left right => by
      rw [check]
      refine (typed_check kept isClass scope left).bindSilent fun ⟨left, leftType⟩ ⟨first, _⟩ =>
        (typed_check kept isClass scope right).bindSilent fun ⟨right, rightType⟩ ⟨second, _⟩ => ?_
      have known := kept.gives.resultType operator
      have rest : Leads ready (fun result => Note.AllTyped typed result.1.notes ∧ typed result.2)
          (pure (Expr.binary (note.typed operator.resultType) operator left right, operator.resultType) :
            Typing (Expr × TypeId)) := .pure
        ⟨by rw [Expr.notes]; exact .cons_typed known (first.append second), known⟩
      dsimp only
      split
      · exact (kept.typed_report _ _).bindSilent fun _ _ => rest
      · exact rest

theorem typed_checkReceiver (kept : Invariant around.hierarchy typed declared ready)
    (isClass : typed around.current) (scope : ScopeId) : (receiver : Option Expr) →
    Leads ready
      (fun result => Note.AllTyped typed (Expr.notesOption result.1) ∧ typed result.2)
      (checkReceiver around scope receiver)
  | none => by
      rw [checkReceiver]
      exact .pure ⟨by rw [Expr.notesOption]; exact .nil, isClass⟩
  | some receiver => by
      rw [checkReceiver]
      exact (typed_check kept isClass scope receiver).bindSilent fun ⟨receiver, type⟩ ⟨inside, known⟩ =>
        .pure ⟨by rwa [Expr.notesOption], known⟩

theorem typed_checkArgs (kept : Invariant around.hierarchy typed declared ready)
    (isClass : typed around.current) (scope : ScopeId) :
    (args : List Expr) → (params : List TypeId) →
    Leads ready (fun result => Note.AllTyped typed (Expr.notesAll result))
      (checkArgs around scope args params)
  | [], _ => by
      rw [checkArgs]
      exact .pure (by rw [Expr.notesAll]; exact .nil)
  | arg :: args, params => by
      rw [checkArgs]
      refine (typed_check kept isClass scope arg).bindSilent fun ⟨arg, type⟩ ⟨first, _⟩ => ?_
      have rest : Leads ready (fun result => Note.AllTyped typed (Expr.notesAll result)) (do
          let args ← checkArgs around scope args params.tail
          return arg :: args) :=
        (typed_checkArgs kept isClass scope args params.tail).bindSilent fun args later => .pure
          (by rw [Expr.notesAll]; exact first.append later)
      dsimp only
      split
      · exact (kept.typed_expectConforming _ _ _).bindSilent fun _ _ => rest
      · exact rest

theorem typed_checkAll (kept : Invariant around.hierarchy typed declared ready)
    (isClass : typed around.current) (scope : ScopeId) (last : TypeId)
    (ofLast : typed last) : (exprs : List Expr) → Leads ready
      (fun result => Note.AllTyped typed (Expr.notesAll result.1) ∧ typed result.2)
      (checkAll around scope last exprs)
  | [] => by
      rw [checkAll]
      exact .pure ⟨by rw [Expr.notesAll]; exact .nil, ofLast⟩
  | expr :: exprs => by
      rw [checkAll]
      exact (typed_check kept isClass scope expr).bindSilent fun ⟨expr, type⟩ ⟨first, known⟩ =>
        (typed_checkAll kept isClass scope type known exprs).bindSilent
        fun ⟨exprs, type⟩ ⟨later, known⟩ =>
        .pure ⟨by rw [Expr.notesAll]; exact first.append later, known⟩

theorem typed_checkBindings (kept : Invariant around.hierarchy typed declared ready)
    (isClass : typed around.current) {body : ScopeId → Typing (Expr × TypeId)}
    (scope : ScopeId) : (bindings : List (Binding Expr)) →
    (∀ scope, Leads ready
      (fun result => Note.AllTyped typed result.1.notes ∧ typed result.2) (body scope)) →
    Leads ready
      (fun result => Note.AllTyped typed (Expr.notesBindings result.1) ∧
        Note.AllTyped typed result.2.1.notes ∧ typed result.2.2)
      (checkBindings around scope bindings body)
  | [], resolves => by
      rw [checkBindings]
      exact (resolves scope).bindSilent fun ⟨body, type⟩ inside => .pure
        ⟨by rw [Expr.notesBindings]; exact .nil, inside⟩
  | ⟨name, written, init⟩ :: bindings, resolves => by
      rw [checkBindings]
      refine (kept.typed_bindingType isClass written).bindSilent fun declared ofDeclared =>
        (typed_checkInit kept isClass scope init).bindSilent fun typed' first =>
        (kept.typed_openScope scope).bindSilent fun scope _ =>
        (kept.typed_declare 0 _ ofDeclared).bindSilent fun declared _ => ?_
      have rest : Leads ready
          (fun result => Note.AllTyped typed (Expr.notesBindings result.1) ∧
            Note.AllTyped typed result.2.1.notes ∧ typed result.2.2)
          (do
            let (bindings, body, type) ← checkBindings around scope bindings body
            Typing.closeScope
            return (⟨name, written, typed'.map Prod.fst⟩ :: bindings, body, type)) :=
        (typed_checkBindings kept isClass scope bindings resolves).bindSilent
          fun ⟨bindings, body, type⟩ ⟨later, inside⟩ => kept.typed_closeScope.bindSilent fun _ _ => .pure
            ⟨by rw [Expr.notesBindings]; exact first.append later, inside⟩
      dsimp only
      split
      · exact (kept.typed_expectConforming _ _ _).bindSilent fun _ _ => rest
      · exact rest

theorem typed_checkInit (kept : Invariant around.hierarchy typed declared ready)
    (isClass : typed around.current) (scope : ScopeId) : (init : Option Expr) →
    Leads ready (fun result => Note.AllTyped typed (Expr.notesOption (result.map Prod.fst)))
      (checkInit around scope init)
  | none => by
      rw [checkInit]
      exact .pure (by rw [Option.map_none, Expr.notesOption]; exact .nil)
  | some init => by
      rw [checkInit]
      exact (typed_check kept isClass scope init).bindSilent fun ⟨init, type⟩ ⟨inside, _⟩ => .pure
        (by rwa [Option.map_some, Expr.notesOption])

theorem typed_checkBranches (kept : Invariant around.hierarchy typed declared ready)
    (isClass : typed around.current) (scope : ScopeId) (seen : List TypeId)
    (type : Option TypeId) (ofType : ∀ known ∈ type, typed known) : (branches : List (Branch Expr)) →
    Leads ready
      (fun result => Note.AllTyped typed (Expr.notesBranches result.1) ∧
        ∀ known ∈ result.2, typed known)
      (checkBranches around scope seen type branches)
  | [] => by
      rw [checkBranches]
      exact .pure ⟨by rw [Expr.notesBranches]; exact .nil, ofType⟩
  | ⟨name, written, body⟩ :: branches => by
      rw [checkBranches]
      refine (kept.typed_branchType seen written).bindSilent fun ⟨declared, seen⟩ ofDeclared =>
        (kept.typed_openScope scope).bindSilent fun inner _ =>
        (kept.typed_declare 0 _ ofDeclared).bindSilent fun _ _ =>
        (typed_check kept isClass inner body).bindSilent fun ⟨body, bodyType⟩ ⟨first, ofBody⟩ =>
        kept.typed_closeScope.bindSilent fun _ _ => ?_
      have joined : ∀ known ∈ some (type.elim bodyType fun type =>
          around.hierarchy.union type bodyType), typed known := by
        rintro _ ⟨⟩
        cases type with
        | none => exact ofBody
        | some type => exact kept.gives.union (ofType type rfl) ofBody
      exact (typed_checkBranches kept isClass scope seen _ joined branches).bindSilent
        fun ⟨branches, type⟩ ⟨later, known⟩ => .pure
          ⟨by rw [Expr.notesBranches]; exact first.append later, known⟩

end

/-! ### Classes -/

section

variable (kept : Invariant around.hierarchy typed declared ready)
include kept

theorem typed_declareParams (scope : ScopeId) (place : Nat) (params : List Param) :
    Leads ready (fun _ => True) (declareParams around scope place params) := by
  induction params generalizing place with
  | nil => exact .pure trivial
  | cons param params ih =>
      exact (kept.typed_declare _ _ (kept.declared_paramType param)).bindSilent fun _ _ => ih (place + 1)

theorem typed_checkAttribute (isClass : typed around.current) (scope : ScopeId) (decl : AttributeDecl) :
    Leads ready (fun result => Note.AllTyped typed (Feature.attribute result).notes)
      (checkAttribute around scope decl) := by
  unfold checkAttribute
  obtain ⟨name, written, init⟩ := decl
  cases init with
  | none => exact .pure (by rw [Feature.notes, Expr.notesOption]; exact .nil)
  | some init =>
      exact (kept.typed_check isClass scope init).bindSilent fun ⟨init, type⟩ ⟨inside, _⟩ =>
        (kept.typed_expectConforming _ _ _).bindSilent fun _ _ => .pure
          (by rwa [Feature.notes, Expr.notesOption])

theorem typed_checkMethod (isClass : typed around.current) (scope : ScopeId) (decl : MethodDecl) :
    Leads ready (fun result => Note.AllTyped typed (Feature.method result).notes)
      (checkMethod around scope decl) := by
  unfold checkMethod
  exact (kept.typed_declareParams scope 1 decl.params).bindSilent fun _ _ =>
    (kept.typed_check isClass scope decl.body).bindSilent fun ⟨body, type⟩ ⟨inside, _⟩ =>
    (kept.typed_expectConforming _ _ _).bindSilent fun _ _ => .pure inside

end

section

variable {type : TypeId} (kept : Invariant hierarchy typed declared ready)
include kept

theorem typed_checkFeature (isClass : typed type) (scope : ScopeId) (feature : Feature) :
    Leads ready (fun result => Note.AllTyped typed result.notes)
      (checkFeature hierarchy type scope feature) := by
  unfold checkFeature
  refine (kept.typed_openScope scope).bindSilent fun inner _ =>
    (kept.typed_declare 0 "self" (kept.weaken _ isClass)).bindSilent fun _ _ => ?_
  rcases feature with decl | decl
  · exact (typed_checkAttribute kept isClass inner decl).bindSilent fun decl inside =>
      kept.typed_closeScope.bindSilent fun _ _ => .pure inside
  · exact (typed_checkMethod kept isClass inner decl).bindSilent fun decl inside =>
      kept.typed_closeScope.bindSilent fun _ _ => .pure inside

theorem typed_checkFeatures (isClass : typed type) (scope : ScopeId) (features : List Feature) :
    Leads ready (fun result => Note.AllTyped typed (result.flatMap Feature.notes))
      (checkFeatures hierarchy type scope features) := by
  induction features with
  | nil => exact .pure .nil
  | cons feature features ih =>
      rw [checkFeatures]
      exact (typed_checkFeature kept isClass scope feature).bindSilent fun feature first =>
        ih.bindSilent fun features later => .pure
          (by rw [List.flatMap_cons]; exact first.append later)

theorem typed_checkClass (isClass : typed type) (scope : ScopeId) (decl : ClassDecl) :
    Leads ready (fun result => Note.AllTyped typed result.notes)
      (checkClass hierarchy type scope decl) := by
  unfold checkClass
  exact (typed_checkFeatures kept isClass scope decl.features).bindSilent
    fun features inside => .pure inside

theorem typed_checkClasses (decls : List ClassDecl) (types : ClassTypes) (scopes : List ScopeId)
    (enough : (types.filterMap id).length ≤ scopes.length)
    (areClasses : ∀ type, some type ∈ types → typed type) :
    Leads ready (fun result => Note.AllTyped typed (Program.notes ⟨result⟩ types))
      (checkClasses hierarchy decls types scopes) := by
  induction decls generalizing types scopes with
  | nil => exact .pure .nil
  | cons decl decls ih =>
      rcases types with _ | ⟨_ | type, types⟩
      · exact .pure .nil
      · have later := ih types scopes enough fun type member =>
          areClasses type (List.mem_cons_of_mem _ member)
        exact later.bindSilent fun decls inside => .pure inside
      · rcases scopes with _ | ⟨scope, scopes⟩
        · exact absurd enough (Nat.not_succ_le_zero _)
        · have later := ih types scopes (Nat.le_of_succ_le_succ enough) fun type member =>
            areClasses type (List.mem_cons_of_mem _ member)
          rw [checkClasses]
          exact (typed_checkClass kept (areClasses type List.mem_cons_self) scope decl).bindSilent
            fun decl first => later.bindSilent fun decls inside => .pure (first.append inside)

theorem typed_verifyClasses (decls : List ClassDecl) (types : ClassTypes)
    (areClasses : ∀ type, some type ∈ types → typed type) :
    Leads ready (fun result => Note.AllTyped typed (Program.notes ⟨result⟩ types))
      (verifyClasses hierarchy decls types) := by
  induction decls generalizing types with
  | nil => exact .pure .nil
  | cons decl decls ih =>
      rcases types with _ | ⟨_ | type, types⟩
      · exact .pure .nil
      · have later := ih types fun type member => areClasses type (List.mem_cons_of_mem _ member)
        exact later.bindSilent fun decls inside => .pure inside
      · have later := ih types fun type member => areClasses type (List.mem_cons_of_mem _ member)
        rw [verifyClasses]
        exact (kept.typed_openScope ScopeTree.root).bindSilent fun scope _ =>
          (typed_checkClass kept (areClasses type List.mem_cons_self) scope decl).bindSilent
            fun decl first => kept.typed_closeScope.bindSilent fun _ _ =>
          later.bindSilent fun decls inside => .pure (first.append inside)

end

end Invariant

end Typing

end CoolLang
