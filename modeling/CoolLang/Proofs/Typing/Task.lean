import CoolLang.Program.Nesting
import CoolLang.Program.Notes
import CoolLang.Proofs.Scope.Traversal
import CoolLang.Proofs.Stateful
import CoolLang.Typing.Check

/-!
What typing does, task by task. Where the tree is built, it creates the scopes that the syntax tells;
where a walk over a finished tree is replayed, the cursor goes by their marks. In both cases the program
that is returned differs in static types only (`Typing.checkFeatures_performs`).
-/

namespace CoolLang

/-- What typing does at a scope: it goes through all of a nest there, or it leaves the scope. -/
inductive ScopeTask where
  | visit (parent : ScopeId) (nest : Nest)
  | leave

namespace ScopeTask

def marks : ScopeTask → List ScopeMark
  | visit _ nest => nest.marks
  | leave => [.leave]

def grow (tree : ScopeTree) : ScopeTask → ScopeTree
  | visit parent nest => nest.grow tree parent
  | leave => tree

theorem marks_visits (scope : ScopeId) (nests : List Nest) :
    (nests.map (visit scope)).flatMap marks = Nest.marksAll nests := by
  induction nests with
  | nil => rfl
  | cons nest nests ih => rw [List.map_cons, List.flatMap_cons, ih, marks, Nest.marksAll]

theorem grow_visits (tree : ScopeTree) (scope : ScopeId) (nests : List Nest) :
    (nests.map (visit scope)).foldl grow tree = Nest.growAll tree scope nests := by
  induction nests generalizing tree with
  | nil => rfl
  | cons nest nests ih => rw [List.map_cons, List.foldl_cons, ih, grow, Nest.growAll]

/-- The tasks inside scopes that exist, each of them with the nests of one. -/
def inside : List ScopeId → List Nest → List ScopeTask
  | id :: ids, .scope inner :: nests => inner.map (visit id) ++ inside ids nests
  | _, _ => []

theorem inside_nil (ids : List ScopeId) : inside ids [] = [] := by
  cases ids <;> rfl

theorem grow_inside (tree : ScopeTree) (ids : List ScopeId) (nests : List Nest) :
    (inside ids nests).foldl grow tree = Nest.growEach tree ids nests := by
  induction ids generalizing tree nests with
  | nil =>
      rw [inside, Nest.growEach]
      · rfl
      · intros
        contradiction
      · intros
        contradiction
  | cons id ids ih =>
      obtain _ | ⟨⟨inner⟩, nests⟩ := nests
      · rfl
      · rw [inside, List.foldl_append, grow_visits, ih, Nest.growEach]

end ScopeTask

/-- Whether all variables are as they are declared. -/
def ScopeTree.AllDeclared (tree : ScopeTree) : Prop :=
  ∀ info ∈ tree.vars, ∃ name type, info = .declared name type

namespace Typing

/-- What tasks make of a state. -/
structure Performs (tasks : List ScopeTask) (before after : TypingState) : Prop where
  /-- A replay that can go by the marks does, and leaves the tree. -/
  replayed : ∀ cursor last, before.cursor = some cursor → before.drift = none →
    cursor.moves before.tree (tasks.flatMap ScopeTask.marks) = .ok last →
      after.cursor = some last ∧ after.drift = none ∧ after.tree = before.tree
  built : before.cursor = none → after.cursor = none ∧ after.drift = before.drift ∧
    after.tree.skeleton = tasks.foldl ScopeTask.grow before.tree.skeleton
  declared : before.tree.AllDeclared → before.cursor = none → after.tree.AllDeclared

/-- What leaves scopes and variables alone performs no task. -/
theorem Performs.of_found {before : TypingState} (found : Array Diagnostic) :
    Performs [] before { before with found := found } := by
  refine ⟨fun cursor last isCursor noDrift moved => ?_, fun building => ⟨building, rfl, rfl⟩,
    fun all _ => all⟩
  cases moved
  exact ⟨isCursor, noDrift, rfl⟩

instance : Composes Performs where
  refl state := .of_found state.found
  trans {first second before between after} one two := by
    refine ⟨fun cursor last isCursor noDrift moved => ?_, fun building => ?_, fun all building => ?_⟩
    · rw [List.flatMap_append] at moved
      obtain ⟨middle, moved, moved'⟩ := Cursor.exists_of_moves_append moved
      obtain ⟨isMiddle, noDrift, same⟩ := one.replayed cursor middle isCursor noDrift moved
      obtain ⟨isLast, noDrift, same'⟩ := two.replayed middle last isMiddle noDrift (same ▸ moved')
      exact ⟨isLast, noDrift, same'.trans same⟩
    · obtain ⟨building, drift, grown⟩ := one.built building
      obtain ⟨building, drift', grown'⟩ := two.built building
      refine ⟨building, drift'.trans drift, ?_⟩
      rw [grown', grown, List.foldl_append]
    · exact two.declared (one.declared all building) (one.built building).1

variable {around : Surroundings} {scope : ScopeId} {α : Type} {property : α → Prop}

/-! ### Steps -/

theorem performs_report (position : Position) (problem : Problem) :
    Yields Performs [] (fun _ => True) (report position problem) :=
  fun _ => ⟨.of_found _, trivial⟩

theorem performs_lookUp (name : String) : Yields Performs [] (fun _ => True) (lookUp scope name) :=
  Yields.get.bind fun _ _ => .skip

section

variable {state : TypingState} {cursor next : Cursor}

theorem declare_of_building (place : Nat) (info : Variable) (building : state.cursor = none) :
    declare scope place info state =
      (info.type, { state with tree := (state.tree.define scope info).2 }) := by
  obtain ⟨tree, _, drift, found⟩ := state
  obtain rfl := building
  rfl

theorem declare_of_replaying (place : Nat) (info : Variable) (replaying : state.cursor = some cursor) :
    (declare scope place info state).2 = state := by
  obtain ⟨tree, _, drift, found⟩ := state
  obtain rfl := replaying
  unfold declare
  simp only [bind, StateT.bind, get, getThe, MonadStateOf.get, StateT.get, pure]
  cases (tree.locals scope)[place]? <;> rfl

theorem openScope_of_building (building : state.cursor = none) :
    openScope scope state =
      (state.tree.nodes.size, { state with tree := (state.tree.createChild scope).2 }) := by
  obtain ⟨tree, _, drift, found⟩ := state
  obtain rfl := building
  rfl

theorem openScope_of_replaying (replaying : state.cursor = some cursor)
    (entered : cursor.enter state.tree = .ok next) :
    openScope scope state = (next.current, { state with cursor := some next }) := by
  obtain ⟨tree, _, drift, found⟩ := state
  obtain rfl := replaying
  unfold openScope
  simp only [bind, StateT.bind, get, getThe, MonadStateOf.get, StateT.get, pure]
  rw [entered]
  rfl

theorem closeScope_of_building (building : state.cursor = none) : closeScope state = ((), state) := by
  obtain ⟨tree, _, drift, found⟩ := state
  obtain rfl := building
  rfl

theorem closeScope_of_replaying (replaying : state.cursor = some cursor)
    (left : cursor.leave state.tree = .ok next) :
    closeScope state = ((), { state with cursor := some next }) := by
  obtain ⟨tree, _, drift, found⟩ := state
  obtain rfl := replaying
  unfold closeScope
  simp only [bind, StateT.bind, get, getThe, MonadStateOf.get, StateT.get, pure]
  rw [left]
  rfl

end

theorem performs_declare (place : Nat) (name : String) (type : TypeId) :
    Yields Performs [] (fun _ => True) (declare scope place (.declared name type)) := by
  intro state
  refine ⟨⟨fun cursor last isCursor noDrift moved => ?_, fun building => ?_,
    fun all building => ?_⟩, trivial⟩
  · cases moved
    rw [declare_of_replaying place _ isCursor]
    exact ⟨isCursor, noDrift, rfl⟩
  · rw [declare_of_building place _ building]
    exact ⟨building, rfl, ScopeTree.skeleton_define ..⟩
  · rw [declare_of_building place _ building]
    intro info member
    rcases Array.mem_push.mp member with member | rfl
    · exact all info member
    · exact ⟨name, type, rfl⟩

/-- A scope is opened for what is performed inside it up to leaving it. -/
theorem performs_openScope {inner : List Nest} {later : List ScopeTask} {action : ScopeId → Typing α}
    (inside : ∀ child, Yields Performs (inner.map (ScopeTask.visit child) ++ ([.leave] ++ later)) property
      (action child)) :
    Yields Performs (.visit scope (.scope inner) :: later) property (openScope scope >>= action) := by
  intro state
  obtain ⟨performs, holds⟩ : Performs _ (openScope scope state).2 ((openScope scope >>= action) state).2 ∧
      property ((openScope scope >>= action) state).1 :=
    inside (openScope scope state).1 (openScope scope state).2
  generalize ((openScope scope >>= action) state).2 = final at performs ⊢
  refine ⟨⟨fun cursor last isCursor noDrift moved => ?_, fun building => ?_,
    fun all building => ?_⟩, holds⟩
  · rw [List.flatMap_cons, ScopeTask.marks, Nest.marks, List.cons_append, List.append_assoc] at moved
    cases entered : cursor.enter state.tree with
    | error =>
        rw [Cursor.moves_cons, Cursor.move, entered] at moved
        cases moved
    | ok next =>
        rw [Cursor.moves_cons, Cursor.move, entered] at moved
        rw [openScope_of_replaying isCursor entered] at performs
        refine performs.replayed next last rfl noDrift ?_
        rw [List.flatMap_append, ScopeTask.marks_visits, List.flatMap_append]
        exact moved
  · rw [openScope_of_building building] at performs
    obtain ⟨building, drift, grown⟩ := performs.built building
    refine ⟨building, drift, grown.trans ?_⟩
    rw [List.foldl_append, ScopeTask.grow_visits, ScopeTree.skeleton_createChild, List.foldl_cons,
      ScopeTask.grow, Nest.grow, ScopeTree.fst_createChild, ScopeTree.size_skeleton]
    rfl
  · rw [openScope_of_building building] at performs
    exact performs.declared all building

theorem performs_closeScope : Yields Performs [.leave] (fun _ => True) closeScope := by
  intro state
  refine ⟨⟨fun cursor last isCursor noDrift moved => ?_, fun building => ?_,
    fun all building => ?_⟩, trivial⟩
  · rw [List.flatMap_singleton] at moved
    have left : cursor.leave state.tree = .ok last := by
      cases left : cursor.leave state.tree with
      | error drift =>
          rw [ScopeTask.marks, Cursor.moves_cons, Cursor.move, left] at moved
          cases moved
      | ok next =>
          rw [ScopeTask.marks, Cursor.moves_cons, Cursor.move, left] at moved
          exact moved
    rw [closeScope_of_replaying isCursor left]
    exact ⟨rfl, noDrift, rfl⟩
  · rw [closeScope_of_building building]
    exact ⟨building, rfl, rfl⟩
  · rw [closeScope_of_building building]
    exact all

theorem performs_expectConforming (type expected : TypeId) (position : Position) :
    Yields Performs [] (fun _ => True) (expectConforming around type expected position) := by
  unfold expectConforming
  split
  · exact performs_report _ _
  · exact .skip

theorem performs_typeOfName (name : String) (position : Position) :
    Yields Performs [] (fun _ => True) (typeOfName around scope name position) := by
  refine (performs_lookUp name).bind fun info _ => ?_
  cases info with
  | none => exact (performs_report _ _).bind fun _ _ => .skip
  | some info => exact .skip

theorem performs_checkTarget (target : Ident) (type : TypeId) (position : Position) :
    Yields Performs [] (fun _ => True) (checkTarget around scope target type position) := by
  unfold checkTarget
  split
  · exact performs_report _ _
  · refine (performs_lookUp target.name).bind fun info _ => ?_
    cases info with
    | none => exact performs_report _ _
    | some info => exact performs_expectConforming _ _ _

theorem performs_dispatchType (receiver : TypeId) (cast : Option Ident) :
    Yields Performs [] (fun _ => True) (dispatchType around receiver cast) := by
  unfold dispatchType
  split
  · exact .skip
  · split
    · exact (performs_report _ _).bind fun _ _ => .skip
    · split
      · exact (performs_expectConforming _ _ _).bind fun _ _ => .skip
      · exact (performs_report _ _).bind fun _ _ => .skip

theorem performs_callee (owner : TypeId) (method : Ident) (args : Nat) :
    Yields Performs [] (fun _ => True) (callee around owner method args) := by
  unfold callee
  split
  · exact .skip
  · split
    · exact (performs_report _ _).bind fun _ _ => .skip
    · split
      · exact .skip
      · exact (performs_report _ _).bind fun _ _ => .skip

theorem performs_bindingType (written : Option Ident) :
    Yields Performs [] (fun _ => True) (bindingType around written) := by
  unfold bindingType
  split
  · exact .skip
  · split
    · exact .skip
    · exact (performs_report _ _).bind fun _ _ => .skip

theorem performs_branchType (seen : List TypeId) (written : Ident) :
    Yields Performs [] (fun _ => True) (branchType around seen written) := by
  unfold branchType
  split
  · exact (performs_report _ _).bind fun _ _ => .skip
  · split
    · exact (performs_report _ _).bind fun _ _ => .skip
    · split
      · exact (performs_report _ _).bind fun _ _ => .skip
      · exact .skip

theorem performs_newType (written : Ident) :
    Yields Performs [] (fun _ => True) (newType around written) := by
  unfold newType
  split
  · exact (performs_report _ _).bind fun _ _ => .skip
  · split
    · exact .skip
    · split
      · exact (performs_report _ _).bind fun _ _ => .skip
      · exact .skip

/-! ### Expressions -/

section

variable (around)

mutual

theorem check_performs (scope : ScopeId) : (expr : Expr) →
    Yields Performs (expr.nests.map (.visit scope)) (fun result => result.1.untyped = expr.untyped)
      (check around scope expr)
  | .integer note value => by
      rw [check]
      exact .pure (by rw [Expr.untyped, Expr.untyped]; rfl)
  | .string note value => by
      rw [check]
      exact .pure (by rw [Expr.untyped, Expr.untyped]; rfl)
  | .boolean note value => by
      rw [check]
      exact .pure (by rw [Expr.untyped, Expr.untyped]; rfl)
  | .identifier note name => by
      rw [check]
      exact (performs_typeOfName name _).bind fun type _ => .pure (by rw [Expr.untyped, Expr.untyped]; rfl)
  | .assign note target value => by
      rw [check, Expr.nests]
      refine (check_performs scope value).bindSilent fun ⟨value, type⟩ inside =>
        (performs_checkTarget target type _).bind fun _ _ => .pure ?_
      rw [Expr.untyped, Expr.untyped, inside]
      rfl
  | .dispatch note receiver cast method args => by
      rw [check, Expr.nests, List.map_append]
      refine (checkReceiver_performs scope receiver).bind fun ⟨receiver, receiverType⟩ first =>
        (performs_dispatchType receiverType cast).bind fun owner _ =>
        (performs_callee owner method _).bind fun callee _ =>
        (checkArgs_performs scope args _).bindSilent fun args later => .pure ?_
      rw [Expr.untyped, Expr.untyped, first, later]
      rfl
  | .cond note test yes no => by
      rw [check, Expr.nests, List.map_append, List.map_append]
      refine (check_performs scope test).bind fun ⟨test, testType⟩ first =>
        (performs_expectConforming testType _ _).bind fun _ _ =>
        (check_performs scope yes).bind fun ⟨yes, yesType⟩ second =>
        (check_performs scope no).bindSilent fun ⟨no, noType⟩ third => .pure ?_
      rw [Expr.untyped, Expr.untyped, first, second, third]
      rfl
  | .loop note test body => by
      rw [check, Expr.nests, List.map_append]
      refine (check_performs scope test).bind fun ⟨test, testType⟩ first =>
        (performs_expectConforming testType _ _).bind fun _ _ =>
        (check_performs scope body).bindSilent fun ⟨body, _⟩ second => .pure ?_
      rw [Expr.untyped, Expr.untyped, first, second]
      rfl
  | .block note body => by
      rw [check, Expr.nests]
      refine performs_openScope fun inner => (checkAll_performs inner .object body).bind
        fun ⟨body, type⟩ inside => performs_closeScope.bindSilent fun _ _ => .pure ?_
      rw [Expr.untyped, Expr.untyped, inside]
      rfl
  | .letIn note bindings body => by
      rw [check, Expr.nests]
      refine (checkBindings_performs scope bindings fun inner => check_performs inner body).bindSilent
        fun ⟨bindings, body, type⟩ inside => .pure ?_
      rw [Expr.untyped, Expr.untyped, inside.1, inside.2]
      rfl
  | .caseOf note scrutinee branches => by
      rw [check, Expr.nests, List.map_append]
      refine (check_performs scope scrutinee).bind fun ⟨scrutinee, _⟩ first =>
        (checkBranches_performs scope [] none branches).bindSilent fun ⟨branches, type⟩ second =>
        .pure ?_
      rw [Expr.untyped, Expr.untyped, first, second]
      rfl
  | .new note written => by
      rw [check]
      exact (performs_newType written).bind fun type _ => .pure (by rw [Expr.untyped, Expr.untyped]; rfl)
  | .isVoid note operand => by
      rw [check, Expr.nests]
      refine (check_performs scope operand).bindSilent fun ⟨operand, _⟩ inside => .pure ?_
      rw [Expr.untyped, Expr.untyped, inside]
      rfl
  | .not note operand => by
      rw [check, Expr.nests]
      refine (check_performs scope operand).bindSilent fun ⟨operand, type⟩ inside =>
        (performs_expectConforming type _ _).bind fun _ _ => .pure ?_
      rw [Expr.untyped, Expr.untyped, inside]
      rfl
  | .complement note operand => by
      rw [check, Expr.nests]
      refine (check_performs scope operand).bindSilent fun ⟨operand, type⟩ inside =>
        (performs_expectConforming type _ _).bind fun _ _ => .pure ?_
      rw [Expr.untyped, Expr.untyped, inside]
      rfl
  | .binary note operator left right => by
      rw [check, Expr.nests, List.map_append]
      refine (check_performs scope left).bind fun ⟨left, leftType⟩ first =>
        (check_performs scope right).bindSilent fun ⟨right, rightType⟩ second => ?_
      have rest : Yields Performs [] (fun result : Expr × TypeId => result.1.untyped = _)
          (pure (.binary (note.typed operator.resultType) operator left right, operator.resultType)) :=
        .pure (by rw [Expr.untyped, first, second])
      rw [Expr.untyped]
      dsimp only
      split
      · exact (performs_report _ _).bind fun _ _ => rest
      · exact rest

theorem checkReceiver_performs (scope : ScopeId) : (receiver : Option Expr) →
    Yields Performs ((Expr.nestsOption receiver).map (.visit scope))
      (fun result => Expr.untypedOption result.1 = Expr.untypedOption receiver)
      (checkReceiver around scope receiver)
  | none => by
      rw [checkReceiver]
      exact .pure rfl
  | some receiver => by
      rw [checkReceiver, Expr.nestsOption]
      refine (check_performs scope receiver).bindSilent fun ⟨receiver, type⟩ same => .pure ?_
      rw [Expr.untypedOption, Expr.untypedOption, same]

theorem checkArgs_performs (scope : ScopeId) : (args : List Expr) → (params : List TypeId) →
    Yields Performs ((Expr.nestsAll args).map (.visit scope))
      (fun result => Expr.untypedAll result = Expr.untypedAll args)
      (checkArgs around scope args params)
  | [], _ => by
      rw [checkArgs]
      exact .pure rfl
  | arg :: args, params => by
      rw [checkArgs, Expr.nestsAll, List.map_append]
      refine (check_performs scope arg).bind fun ⟨arg, type⟩ first => ?_
      have rest : Yields Performs ((Expr.nestsAll args).map (.visit scope)) (fun result =>
          Expr.untypedAll result = _) (do
            let args ← checkArgs around scope args params.tail
            return arg :: args) :=
        (checkArgs_performs scope args params.tail).bindSilent fun args later => .pure
          (by rw [Expr.untypedAll, first, later])
      rw [Expr.untypedAll]
      dsimp only
      split
      · exact (performs_expectConforming _ _ _).bind fun _ _ => rest
      · exact rest

theorem checkAll_performs (scope : ScopeId) (last : TypeId) : (exprs : List Expr) →
    Yields Performs ((Expr.nestsAll exprs).map (.visit scope))
      (fun result => Expr.untypedAll result.1 = Expr.untypedAll exprs)
      (checkAll around scope last exprs)
  | [] => by
      rw [checkAll]
      exact .pure rfl
  | expr :: exprs => by
      rw [checkAll, Expr.nestsAll, List.map_append]
      refine (check_performs scope expr).bind fun ⟨expr, type⟩ first =>
        (checkAll_performs scope type exprs).bindSilent fun ⟨exprs, type⟩ later => .pure ?_
      rw [Expr.untypedAll, Expr.untypedAll, first, later]

theorem checkBindings_performs {body : ScopeId → Typing (Expr × TypeId)} {inner : List Nest} {value : Expr}
    (scope : ScopeId) : (bindings : List (Binding Expr)) →
    (∀ scope, Yields Performs (inner.map (.visit scope)) (fun result => result.1.untyped = value.untyped)
      (body scope)) →
    Yields Performs ((Expr.nestsBindings inner bindings).map (.visit scope))
      (fun result => Expr.untypedBindings result.1 = Expr.untypedBindings bindings ∧
        result.2.1.untyped = value.untyped)
      (checkBindings around scope bindings body)
  | [], performs => by
      rw [checkBindings, Expr.nestsBindings]
      exact (performs scope).bindSilent fun ⟨body, type⟩ same => .pure ⟨rfl, same⟩
  | ⟨name, written, init⟩ :: bindings, performs => by
      rw [checkBindings, Expr.nestsBindings, List.map_append]
      refine (performs_bindingType written).bind fun declared _ => (checkInit_performs scope init).bind
        fun typed first => performs_openScope fun scope =>
        (performs_declare 0 name.name declared).bind fun declared _ => ?_
      have rest : Yields Performs
          ((Expr.nestsBindings inner bindings).map (.visit scope) ++ [.leave])
          (fun result => Expr.untypedBindings result.1 =
              Expr.untypedBindings (⟨name, written, init⟩ :: bindings) ∧
            result.2.1.untyped = value.untyped)
          (do
            let (bindings, body, type) ← checkBindings around scope bindings body
            closeScope
            return (⟨name, written, typed.map Prod.fst⟩ :: bindings, body, type)) := by
        refine (checkBindings_performs scope bindings performs).bind fun ⟨bindings, body, type⟩ later =>
          performs_closeScope.bindSilent fun _ _ => .pure ⟨?_, later.2⟩
        rw [Expr.untypedBindings, Expr.untypedBindings, first, later.1]
      dsimp only
      split
      · exact (performs_expectConforming _ _ _).bind fun _ _ => rest
      · exact rest

theorem checkInit_performs (scope : ScopeId) : (init : Option Expr) →
    Yields Performs ((Expr.nestsOption init).map (.visit scope))
      (fun result => Expr.untypedOption (result.map Prod.fst) = Expr.untypedOption init)
      (checkInit around scope init)
  | none => by
      rw [checkInit]
      exact .pure rfl
  | some init => by
      rw [checkInit, Expr.nestsOption]
      refine (check_performs scope init).bindSilent fun ⟨init, type⟩ same => .pure ?_
      rw [Option.map_some, Expr.untypedOption, Expr.untypedOption, same]

theorem checkBranches_performs (scope : ScopeId) (seen : List TypeId) (type : Option TypeId) :
    (branches : List (Branch Expr)) →
    Yields Performs ((Expr.nestsBranches branches).map (.visit scope))
      (fun result => Expr.untypedBranches result.1 = Expr.untypedBranches branches)
      (checkBranches around scope seen type branches)
  | [] => by
      rw [checkBranches]
      exact .pure rfl
  | ⟨name, written, body⟩ :: branches => by
      rw [checkBranches, Expr.nestsBranches, List.map_cons]
      refine (performs_branchType seen written).bind fun ⟨declared, seen⟩ _ =>
        performs_openScope fun inner => (performs_declare 0 name.name declared).bind fun _ _ =>
        (check_performs inner body).bind fun ⟨body, bodyType⟩ first => performs_closeScope.bind
        fun _ _ => (checkBranches_performs scope seen _ branches).bindSilent
        fun ⟨branches, type⟩ later => .pure ?_
      rw [Expr.untypedBranches, Expr.untypedBranches, first, later]

end

/-! ### Classes -/

theorem declareParams_performs (scope : ScopeId) (place : Nat) (params : List Param) :
    Yields Performs [] (fun _ => True) (declareParams around scope place params) := by
  induction params generalizing place with
  | nil => exact .skip
  | cons param params ih => exact (performs_declare _ _ _).bind fun _ _ => ih (place + 1)

theorem checkAttribute_performs (scope : ScopeId) (decl : AttributeDecl) :
    Yields Performs ((Expr.nestsOption decl.init).map (.visit scope))
      (fun result => (Feature.attribute result).untyped = (Feature.attribute decl).untyped)
      (checkAttribute around scope decl) := by
  unfold checkAttribute
  obtain ⟨name, written, init⟩ := decl
  cases init with
  | none => exact .pure rfl
  | some init =>
      refine (check_performs around scope init).bindSilent fun ⟨init, type⟩ same =>
        (performs_expectConforming _ _ _).bind fun _ _ => .pure ?_
      rw [Feature.untyped, Feature.untyped, Expr.untypedOption, Expr.untypedOption, same]

theorem checkMethod_performs (scope : ScopeId) (decl : MethodDecl) :
    Yields Performs (decl.body.nests.map (.visit scope))
      (fun result => (Feature.method result).untyped = (Feature.method decl).untyped)
      (checkMethod around scope decl) := by
  unfold checkMethod
  refine (declareParams_performs around scope 1 decl.params).bind fun _ _ =>
    (check_performs around scope decl.body).bindSilent fun ⟨body, type⟩ same =>
    (performs_expectConforming _ _ _).bind fun _ _ => .pure ?_
  rw [Feature.untyped, Feature.untyped, same]

end

section

variable (hierarchy : Hierarchy)

theorem checkFeature_performs (type : TypeId) (scope : ScopeId) (feature : Feature) :
    Yields Performs [.visit scope (.scope feature.nests)]
      (fun result => result.untyped = feature.untyped) (checkFeature hierarchy type scope feature) := by
  unfold checkFeature
  refine performs_openScope fun inner => (performs_declare 0 "self" type).bind fun _ _ => ?_
  rcases feature with decl | decl
  · exact (checkAttribute_performs _ inner decl).bind fun decl same =>
      performs_closeScope.bindSilent fun _ _ => .pure same
  · exact (checkMethod_performs _ inner decl).bind fun decl same =>
      performs_closeScope.bindSilent fun _ _ => .pure same

theorem checkFeatures_performs (type : TypeId) (scope : ScopeId) (features : List Feature) :
    Yields Performs ((features.map fun feature => Nest.scope feature.nests).map (.visit scope))
      (fun result => result.map Feature.untyped = features.map Feature.untyped)
      (checkFeatures hierarchy type scope features) := by
  induction features with
  | nil => exact .pure rfl
  | cons feature features ih =>
      rw [checkFeatures, List.map_cons, List.map_cons, ← List.singleton_append]
      refine (checkFeature_performs hierarchy type scope feature).bind fun feature first =>
        ih.bindSilent fun features later => .pure ?_
      rw [List.map_cons, List.map_cons, first, later]

theorem checkClass_performs (type : TypeId) (scope : ScopeId) (decl : ClassDecl) :
    Yields Performs (decl.nests.map (.visit scope)) (fun result => result.untyped = decl.untyped)
      (checkClass hierarchy type scope decl) := by
  unfold checkClass
  refine (checkFeatures_performs hierarchy type scope decl.features).bindSilent
    fun features same => .pure ?_
  rw [ClassDecl.untyped, ClassDecl.untyped, same]

theorem checkClasses_performs (decls : List ClassDecl) (types : ClassTypes) (scopes : List ScopeId) :
    Yields Performs (ScopeTask.inside scopes (Program.nests ⟨decls⟩ types))
      (fun result => result.map ClassDecl.untyped = decls.map ClassDecl.untyped)
      (checkClasses hierarchy decls types scopes) := by
  induction decls generalizing types scopes with
  | nil =>
      rw [show Program.nests ⟨[]⟩ types = [] from rfl, ScopeTask.inside_nil]
      exact .pure rfl
  | cons decl decls ih =>
      rcases types with _ | ⟨_ | type, types⟩
      · rw [show Program.nests ⟨decl :: decls⟩ [] = [] from rfl, ScopeTask.inside_nil]
        exact .pure rfl
      · refine (ih types scopes).bindSilent fun decls later => .pure ?_
        rw [List.map_cons, List.map_cons, later]
      · rcases scopes with _ | ⟨scope, scopes⟩
        · exact .pure rfl
        · rw [checkClasses, show Program.nests ⟨decl :: decls⟩ (some type :: types) =
            .scope decl.nests :: Program.nests ⟨decls⟩ types from rfl, ScopeTask.inside]
          refine (checkClass_performs hierarchy type scope decl).bind fun decl first =>
            (ih types scopes).bindSilent fun decls later => .pure ?_
          rw [List.map_cons, List.map_cons, first, later]

theorem verifyClasses_performs (decls : List ClassDecl) (types : ClassTypes) :
    Yields Performs ((Program.nests ⟨decls⟩ types).map (.visit ScopeTree.root))
      (fun result => result.map ClassDecl.untyped = decls.map ClassDecl.untyped)
      (verifyClasses hierarchy decls types) := by
  induction decls generalizing types with
  | nil => exact .pure rfl
  | cons decl decls ih =>
      rcases types with _ | ⟨_ | type, types⟩
      · exact .pure rfl
      · refine (ih types).bindSilent fun decls later => .pure ?_
        rw [List.map_cons, List.map_cons, later]
      · rw [verifyClasses, show Program.nests ⟨decl :: decls⟩ (some type :: types) =
          .scope decl.nests :: Program.nests ⟨decls⟩ types from rfl, List.map_cons]
        refine performs_openScope fun scope => (checkClass_performs hierarchy type scope decl).bind
          fun decl first => performs_closeScope.bind fun _ _ => (ih types).bindSilent
          fun decls later => .pure ?_
        rw [List.map_cons, List.map_cons, first, later]

end

end Typing

end CoolLang
