import CoolLang.Proofs.Inference.Learning
import Mathlib.Dynamics.FixedPoints.Basic

/-!
Walks that learn nothing. Such a walk leaves the hierarchy and the tree as they are, and the static types
that it leaves depend on these two and on the syntax only (`Inference.walk_follows`), for all hints that
earlier static types give have taught nothing. If the walk after it learns nothing either, then no walk
ever will (`Inference.isFixedPt_of_quiet`). Hints teach nothing where no declaration is open, too, and
there one walk that learns nothing is enough (`Inference.isFixedPt_of_closed`).
-/

namespace CoolLang

namespace Expr

theorem type?_untyped (expr : Expr) : expr.untyped.type? = none := by
  cases expr <;> rw [untyped] <;> rfl

theorem length_untypedAll (exprs : List Expr) : (untypedAll exprs).length = exprs.length := by
  induction exprs with
  | nil => rfl
  | cons expr exprs ih => rw [untypedAll, List.length_cons, ih, List.length_cons]

theorem isEmpty_untypedAll (exprs : List Expr) : (untypedAll exprs).isEmpty = exprs.isEmpty := by
  cases exprs <;> rfl

end Expr

namespace Inference

/-- Nothing has been learned in this walk, and walk and tree do not differ. -/
def Quiet (state : InferenceState) : Prop :=
  state.changed = false ∧ state.drift = none

instance (state : InferenceState) : Decidable (Quiet state) :=
  inferInstanceAs (Decidable (_ ∧ _))

/-! ### Steps -/

theorem Learned.eq_of_quiet {before after : InferenceState} (learned : Learned before after)
    (quiet : Quiet after) : after = before := by
  rcases learned with same | ⟨_, _, _, rfl⟩
  · exact same
  · cases quiet.1

/-- Whoever has learned nothing in the end had learned nothing before, and nothing on the way. -/
theorem Runs.quiet {marks : List ScopeMark} {before after : InferenceState}
    (runs : Runs marks before after) (quiet : Quiet after) :
    Quiet before ∧ after.hierarchy = before.hierarchy ∧ after.tree = before.tree := by
  induction runs with
  | done => exact ⟨quiet, rfl, rfl⟩
  | @move mark _ state _ _ ih =>
      obtain ⟨quiet, hierarchy, tree⟩ := ih quiet
      by_cases noDrift : state.drift = none
      · rw [moveCursor, advance_of_none noDrift] at quiet hierarchy tree
        cases moved : state.cursor.move state.tree mark with
        | ok next =>
            simp only [moved] at quiet hierarchy tree
            exact ⟨quiet, hierarchy, tree⟩
        | error drift =>
            simp only [moved] at quiet
            cases quiet.2
      · rw [moveCursor, advance_of_drift noDrift] at quiet
        exact absurd quiet.2 noDrift
  | @learn _ state _ lesson _ ih =>
      obtain ⟨quiet, hierarchy, tree⟩ := ih quiet
      have learned : Learned state (lesson.learn state).2 := learn_learned lesson
      have same := learned.eq_of_quiet quiet
      rw [same] at quiet hierarchy tree
      exact ⟨quiet, hierarchy, tree⟩

/-- Steps without drift that have learned nothing, or that have been made with nothing open. Hints have
taught nothing then. -/
structure Idle (before after : InferenceState) : Prop where
  noDrift : after.drift = none
  unhinted : after.changed = false ∨ before.Consistent True

theorem Quiet.idle {before after : InferenceState} (quiet : Quiet after) : Idle before after :=
  ⟨quiet.2, Or.inl quiet.1⟩

/-- A drift stays. -/
theorem Runs.noDrift {marks : List ScopeMark} {before after : InferenceState}
    (runs : Runs marks before after) (noDrift : after.drift = none) : before.drift = none := by
  induction runs with
  | done => exact noDrift
  | move _ ih =>
      by_contra drift
      have same := ih noDrift
      rw [moveCursor, advance_of_drift drift] at same
      exact drift same
  | learn lesson _ ih => exact (learn_learned lesson).cursor.2.1.symm.trans (ih noDrift)

/-- Steps that are idle together are idle one by one. -/
theorem Runs.idle {first second : List ScopeMark} {before between after : InferenceState}
    (one : Runs first before between) (two : Runs second between after) (idle : Idle before after) :
    Idle before between ∧ Idle between after := by
  have noDrift := two.noDrift idle.noDrift
  rcases idle.unhinted with unchanged | closed
  · exact ⟨(two.quiet ⟨unchanged, idle.noDrift⟩).1.idle, idle.noDrift, Or.inl unchanged⟩
  · exact ⟨⟨noDrift, Or.inr closed⟩, idle.noDrift, Or.inr (one.consistent closed)⟩

/-- A variable that is not open takes no hint. -/
theorem observeHint_closed {state : InferenceState} {id : VariableId}
    (closed : (state.tree.variableAt id).isOpen = false) (type : TypeId) :
    (observeHint id type state).2 = state := by
  have same : (state.tree.variableAt id).observeHint type = state.tree.variableAt id := by
    rw [Variable.observeHint, closed]
    rfl
  exact advance_preserves (fun after => after = state) rfl fun _ => if_pos same

/-- Wherever an action is idle, another does the same. -/
structure Follows {α : Type} (action other : Inference α) : Prop where
  runs : ∀ state, ∃ marks, Runs marks state (action state).2
  same : ∀ state, Idle state (action state).2 → other state = action state

namespace Follows

variable {α β : Type}

theorem of_runs {marks : List ScopeMark} {property : α → Prop} {action : Inference α}
    (runs : Yields Runs marks property action) : Follows action action :=
  ⟨fun state => ⟨marks, (runs state).1⟩, fun _ _ => rfl⟩

theorem pure (value : α) : Follows (Pure.pure value) (Pure.pure value) :=
  .of_runs Yields.skip

theorem get : Follows MonadState.get MonadState.get :=
  .of_runs Yields.get

theorem bind {action other : Inference α} {next next' : α → Inference β} (one : Follows action other)
    (two : ∀ value, Follows (next value) (next' value)) :
    Follows (action >>= next) (other >>= next') := by
  have both (state : InferenceState) := (two (action state).1).runs (action state).2
  refine ⟨fun state => ?_, fun state idle => ?_⟩
  · obtain ⟨first, before⟩ := one.runs state
    obtain ⟨second, after⟩ := both state
    exact ⟨first ++ second, before.append after⟩
  · obtain ⟨_, before⟩ := one.runs state
    obtain ⟨_, after⟩ := both state
    obtain ⟨idle, idle'⟩ := before.idle after idle
    change next' (other state).1 (other state).2 = next (action state).1 (action state).2
    rw [one.same state idle]
    exact (two _).same _ idle'

/-- A hint that teaches nothing can be left out. -/
theorem withoutHint (id : VariableId) (hint : TypeId) {action : Inference α} (one : Follows action action) :
    Follows (observeHint id hint >>= fun _ => action) action := by
  refine ⟨((Follows.of_runs (runs_learn (.hint id hint))).bind fun _ => one).runs, fun state idle => ?_⟩
  obtain ⟨_, after⟩ := one.runs (observeHint id hint state).2
  have same : (observeHint id hint state).2 = state := by
    rcases idle.unhinted with unchanged | closed
    · exact (learn_learned (.hint id hint)).eq_of_quiet (after.quiet ⟨unchanged, idle.noDrift⟩).1
    · exact observeHint_closed (closed.tree.variableAt id).closed hint
  change action state = action (observeHint id hint state).2
  rw [same]

end Follows

variable {current : TypeId} {hint fewer : Option TypeId}

theorem noted_follows (note : Note) (type : TypeId) :
    Follows (noted note type) (noted note.untyped type) := by
  refine ⟨(Follows.of_runs (runs_noted note type)).runs, fun state idle => ?_⟩
  change ((if state.drift.isSome then note.untyped else note.untyped.typed type), state) =
    ((if state.drift.isSome then note else note.typed type), state)
  have noDrift : state.drift = none := idle.noDrift
  rw [noDrift]
  rfl

theorem inferName_follows (weak : fewer = hint ∨ fewer = none) (name : String) :
    Follows (inferName current hint name) (inferName current fewer name) := by
  refine (Follows.of_runs (runs_lookUp name)).bind fun id => ?_
  cases id with
  | none => exact .pure _
  | some id =>
      have rest : Follows (do return (← typeOf id).resolveIn current)
          (do return (← typeOf id).resolveIn current) :=
        (Follows.of_runs (runs_typeOf id)).bind fun _ => .pure _
      cases hint with
      | none =>
          obtain rfl : fewer = none := or_self_iff.mp weak
          exact rest
      | some hint =>
          rcases weak with rfl | rfl
          · exact (Follows.of_runs (runs_learn (.hint id hint))).bind fun _ => rest
          · exact .withoutHint id hint rest

/-! ### Expressions -/

section

variable (current)

mutual

/-- Inference follows the expression without static types, and with the same hint or none. -/
theorem infer_follows (hint fewer : Option TypeId) (weak : fewer = hint ∨ fewer = none) :
    (expr : Expr) → Follows (infer current hint expr) (infer current fewer expr.untyped)
  | .integer note value => by
      rw [Expr.untyped, infer, infer]
      exact (noted_follows note .int).bind fun _ => .pure _
  | .string note value => by
      rw [Expr.untyped, infer, infer]
      exact (noted_follows note .string).bind fun _ => .pure _
  | .boolean note value => by
      rw [Expr.untyped, infer, infer]
      exact (noted_follows note .bool).bind fun _ => .pure _
  | .identifier note name => by
      rw [Expr.untyped, infer, infer]
      exact (inferName_follows weak name).bind fun type => (noted_follows note type).bind fun _ => .pure _
  | .assign note target value => by
      rw [Expr.untyped, infer, infer]
      exact (Follows.of_runs (runs_lookUp target.name)).bind fun id =>
        (Follows.of_runs (runs_targetHint id)).bind fun expected =>
        (infer_follows expected expected (Or.inl rfl) value).bind fun ⟨_, type⟩ =>
        (Follows.of_runs (runs_observeTarget target id type)).bind fun _ =>
        (noted_follows note type).bind fun _ => .pure _
  | .dispatch note receiver cast method args => by
      rw [Expr.untyped, infer, infer, Expr.length_untypedAll]
      exact Follows.get.bind fun _ => (inferReceiver_follows _ receiver).bind fun ⟨_, _⟩ =>
        Follows.get.bind fun _ => (inferArgs_follows _ 0 args).bind fun _ =>
        (noted_follows note _).bind fun _ => .pure _
  | .cond note test yes no => by
      rw [Expr.untyped, infer, infer]
      exact (infer_follows _ _ (Or.inl rfl) test).bind fun ⟨_, _⟩ =>
        (infer_follows hint fewer weak yes).bind fun ⟨_, _⟩ =>
        (infer_follows hint fewer weak no).bind fun ⟨_, _⟩ =>
        Follows.get.bind fun _ => (noted_follows note _).bind fun _ => .pure _
  | .loop note test body => by
      rw [Expr.untyped, infer, infer]
      exact (infer_follows _ _ (Or.inl rfl) test).bind fun ⟨_, _⟩ =>
        (infer_follows _ _ (Or.inl rfl) body).bind fun ⟨_, _⟩ =>
        (noted_follows note .object).bind fun _ => .pure _
  | .block note body => by
      rw [Expr.untyped, infer, infer]
      exact (Follows.of_runs runs_openScope).bind fun _ =>
        (inferAll_follows hint fewer weak .object body).bind fun ⟨_, type⟩ =>
        (Follows.of_runs runs_closeScope).bind fun _ => (noted_follows note type).bind fun _ => .pure _
  | .letIn note bindings body => by
      rw [Expr.untyped, infer, infer]
      exact (inferBindings_follows bindings (infer_follows hint fewer weak body)).bind
        fun ⟨_, _, type⟩ => (noted_follows note type).bind fun _ => .pure _
  | .caseOf note scrutinee branches => by
      rw [Expr.untyped, infer, infer]
      exact (infer_follows _ _ (Or.inl rfl) scrutinee).bind fun ⟨_, _⟩ =>
        (inferBranches_follows hint fewer weak none branches).bind fun ⟨_, _⟩ =>
        (noted_follows note _).bind fun _ => .pure _
  | .new note written => by
      rw [Expr.untyped, infer, infer]
      exact Follows.get.bind fun _ => (noted_follows note _).bind fun _ => .pure _
  | .isVoid note operand => by
      rw [Expr.untyped, infer, infer]
      exact (infer_follows _ _ (Or.inl rfl) operand).bind fun ⟨_, _⟩ =>
        (noted_follows note .bool).bind fun _ => .pure _
  | .not note operand => by
      rw [Expr.untyped, infer, infer]
      exact (infer_follows _ _ (Or.inl rfl) operand).bind fun ⟨_, _⟩ =>
        (noted_follows note .bool).bind fun _ => .pure _
  | .complement note operand => by
      rw [Expr.untyped, infer, infer]
      exact (infer_follows _ _ (Or.inl rfl) operand).bind fun ⟨_, _⟩ =>
        (noted_follows note .int).bind fun _ => .pure _
  | .binary note operator left right => by
      by_cases equality : operator = .equal
      · subst equality
        -- the left operand has no hint where the right one has no static type
        have weaker : right.untyped.type?.bind TypeId.expected? = none := by
          rw [Expr.type?_untyped]
          rfl
        rw [Expr.untyped, infer, infer]
        exact (infer_follows _ _ (Or.inr weaker) left).bind fun ⟨_, _⟩ =>
          (infer_follows _ _ (Or.inl rfl) right).bind fun ⟨_, _⟩ =>
          (noted_follows note .bool).bind fun _ => .pure _
      · rw [Expr.untyped, infer, infer]
        · exact (infer_follows _ _ (Or.inl rfl) left).bind fun ⟨_, _⟩ =>
            (infer_follows _ _ (Or.inl rfl) right).bind fun ⟨_, _⟩ =>
            (noted_follows note operator.resultType).bind fun _ => .pure _
        · exact equality
        · exact equality

theorem inferReceiver_follows (hint : Option TypeId) : (receiver : Option Expr) →
    Follows (inferReceiver current hint receiver)
      (inferReceiver current hint (Expr.untypedOption receiver))
  | none => by
      rw [Expr.untypedOption, inferReceiver]
      exact .pure _
  | some receiver => by
      rw [Expr.untypedOption, inferReceiver, inferReceiver]
      exact (infer_follows _ _ (Or.inl rfl) receiver).bind fun _ => .pure _

theorem inferArgs_follows (callee : Option (TypeId × Method)) (place : Nat) : (args : List Expr) →
    Follows (inferArgs current callee place args)
      (inferArgs current callee place (Expr.untypedAll args))
  | [] => by
      rw [Expr.untypedAll, inferArgs]
      exact .pure _
  | arg :: args => by
      rw [Expr.untypedAll, inferArgs, inferArgs]
      exact (infer_follows _ _ (Or.inl rfl) arg).bind fun ⟨_, type⟩ =>
        (Follows.of_runs (runs_observeArgument callee place type)).bind fun _ =>
        (inferArgs_follows callee (place + 1) args).bind fun _ => .pure _

theorem inferAll_follows (hint fewer : Option TypeId) (weak : fewer = hint ∨ fewer = none)
    (last : TypeId) : (exprs : List Expr) →
    Follows (inferAll current hint last exprs) (inferAll current fewer last (Expr.untypedAll exprs))
  | [] => by
      rw [Expr.untypedAll, inferAll, inferAll]
      exact .pure _
  | expr :: exprs => by
      have weak' : (if exprs.isEmpty then fewer else none) = (if exprs.isEmpty then hint else none) ∨
          (if exprs.isEmpty then fewer else none) = none := by
        cases exprs.isEmpty with
        | true => exact weak
        | false => exact Or.inl rfl
      rw [Expr.untypedAll, inferAll, inferAll, Expr.isEmpty_untypedAll]
      exact (infer_follows _ _ weak' expr).bind fun ⟨_, type⟩ =>
        (inferAll_follows hint fewer weak type exprs).bind fun ⟨_, _⟩ => .pure _

theorem inferBindings_follows {body body' : Inference (Expr × TypeId)} :
    (bindings : List (Binding Expr)) → Follows body body' →
    Follows (inferBindings current bindings body)
      (inferBindings current (Expr.untypedBindings bindings) body')
  | [], follows => by
      rw [Expr.untypedBindings, inferBindings, inferBindings]
      exact follows.bind fun ⟨_, _⟩ => .pure _
  | ⟨name, written, init⟩ :: bindings, follows => by
      rw [Expr.untypedBindings, inferBindings, inferBindings]
      refine Follows.get.bind fun _ => (inferInit_follows _ init).bind fun typed =>
        (Follows.of_runs runs_openScope).bind fun scope => Follows.get.bind fun _ => ?_
      have rest : Follows
          (do
            let (bindings, body, type) ← inferBindings current bindings body
            closeScope
            return (Binding.mk name written (typed.map Prod.fst) :: bindings, body, type))
          (do
            let (bindings, body, type) ← inferBindings current (Expr.untypedBindings bindings) body'
            closeScope
            return (Binding.mk name written (typed.map Prod.fst) :: bindings, body, type)) :=
        (inferBindings_follows bindings follows).bind fun ⟨_, _, _⟩ =>
          (Follows.of_runs runs_closeScope).bind fun _ => .pure _
      dsimp only
      split
      · exact (Follows.of_runs (runs_learn (.value _ _))).bind fun _ => rest
      · exact rest

theorem inferInit_follows (hint : Option TypeId) : (init : Option Expr) →
    Follows (inferInit current hint init) (inferInit current hint (Expr.untypedOption init))
  | none => by
      rw [Expr.untypedOption, inferInit]
      exact .pure _
  | some init => by
      rw [Expr.untypedOption, inferInit, inferInit]
      exact (infer_follows _ _ (Or.inl rfl) init).bind fun _ => .pure _

theorem inferBranches_follows (hint fewer : Option TypeId) (weak : fewer = hint ∨ fewer = none)
    (type : Option TypeId) : (branches : List (Branch Expr)) →
    Follows (inferBranches current hint type branches)
      (inferBranches current fewer type (Expr.untypedBranches branches))
  | [] => by
      rw [Expr.untypedBranches, inferBranches, inferBranches]
      exact .pure _
  | ⟨name, written, body⟩ :: branches => by
      rw [Expr.untypedBranches, inferBranches, inferBranches]
      exact (Follows.of_runs runs_openScope).bind fun _ => (infer_follows hint fewer weak body).bind
        fun ⟨_, _⟩ => (Follows.of_runs runs_closeScope).bind fun _ => Follows.get.bind fun _ =>
        (inferBranches_follows hint fewer weak _ branches).bind fun ⟨_, _⟩ => .pure _

end

end

/-! ### Classes -/

theorem inferAttribute_follows (scope : ScopeId) (decl : AttributeDecl) :
    Follows (inferAttribute current scope decl)
      (inferAttribute current scope { decl with init := Expr.untypedOption decl.init }) := by
  unfold inferAttribute
  obtain ⟨name, written, init⟩ := decl
  cases init with
  | none => exact .pure _
  | some init =>
      refine Follows.get.bind fun _ => (infer_follows current _ _ (Or.inl rfl) init).bind
        fun ⟨init, type⟩ => Follows.get.bind fun _ => ?_
      dsimp only
      split
      · exact (Follows.of_runs (runs_learn (.value _ _))).bind fun _ => .pure _
      · exact .pure _

theorem inferMethod_follows (scope : ScopeId) (decl : MethodDecl) :
    Follows (inferMethod current scope decl)
      (inferMethod current scope { decl with body := decl.body.untyped }) := by
  unfold inferMethod
  refine Follows.get.bind fun state => ?_
  dsimp only
  split
  · exact (Follows.of_runs (mergeParams_runs current _ 0 _)).bind fun _ =>
      (infer_follows current _ _ (Or.inl rfl) decl.body).bind fun ⟨_, type⟩ =>
      (Follows.of_runs (mergeParams_runs current _ 0 _)).bind fun _ =>
      (Follows.of_runs (runs_learn (.result current decl.name.name type))).bind fun _ => .pure _
  · exact (infer_follows current _ _ (Or.inl rfl) decl.body).bind fun ⟨_, _⟩ => .pure _

theorem inferFeature_follows (scope : ScopeId) (feature : Feature) :
    Follows (inferFeature current scope feature) (inferFeature current scope feature.untyped) := by
  unfold inferFeature
  refine (Follows.of_runs runs_openScope).bind fun inner => ?_
  rcases feature with decl | decl
  · exact (inferAttribute_follows scope decl).bind fun _ =>
      (Follows.of_runs runs_closeScope).bind fun _ => .pure _
  · exact (inferMethod_follows inner decl).bind fun _ =>
      (Follows.of_runs runs_closeScope).bind fun _ => .pure _

theorem inferFeatures_follows (scope : ScopeId) (features : List Feature) :
    Follows (inferFeatures current scope features)
      (inferFeatures current scope (features.map Feature.untyped)) := by
  induction features with
  | nil => exact .pure _
  | cons feature features ih =>
      exact (inferFeature_follows scope feature).bind fun _ => ih.bind fun _ => .pure _

theorem inferClass_follows (current : TypeId) (decl : ClassDecl) :
    Follows (inferClass current decl) (inferClass current decl.untyped) :=
  (Follows.of_runs runs_openScope).bind fun scope => (inferFeatures_follows scope decl.features).bind
    fun _ => (Follows.of_runs (runs_learn (.record current scope))).bind fun _ =>
    (Follows.of_runs runs_closeScope).bind fun _ => .pure _

/-- Classes without static types inside those that have a type. -/
def untypedClasses : List ClassDecl → ClassTypes → List ClassDecl
  | decl :: decls, none :: types => decl :: untypedClasses decls types
  | decl :: decls, some _ :: types => decl.untyped :: untypedClasses decls types
  | decls, _ => decls

theorem inferClasses_follows (decls : List ClassDecl) (types : ClassTypes) :
    Follows (inferClasses decls types) (inferClasses (untypedClasses decls types) types) := by
  induction decls generalizing types with
  | nil => exact .pure _
  | cons decl decls ih =>
      rcases types with _ | ⟨_ | type, types⟩
      · exact .pure _
      · exact (ih types).bind fun _ => .pure _
      · exact (inferClass_follows type decl).bind fun _ => (ih types).bind fun _ => .pure _

theorem inferClasses_untyped (decls : List ClassDecl) (types : ClassTypes) (state : InferenceState) :
    untypedClasses (inferClasses decls types state).1 types = untypedClasses decls types := by
  induction decls generalizing types state with
  | nil => rfl
  | cons decl decls ih =>
      rcases types with _ | ⟨_ | type, types⟩
      · rfl
      · exact congrArg (decl :: ·) (ih types state)
      · exact congrArg₂ List.cons (inferClass_runs type decl state).2 (ih types _)

/-! ### Walks -/

section

variable {types : ClassTypes} {program : Program} {state : InferenceState}

theorem walk_congr {one two : InferenceState} (begins : (beginWalk one).2 = (beginWalk two).2) :
    walk types program one = walk types program two := by
  change ((⟨(inferClasses program.classes types (beginWalk one).2).1⟩ : Program),
    (endWalk (inferClasses program.classes types (beginWalk one).2).2).2) = _
  rw [begins]
  rfl

theorem beginWalk_of_none (noDrift : state.drift = none) :
    (beginWalk state).2 = { state with cursor := .initial, changed := false } :=
  congrArg Prod.snd (advance_of_none noDrift)

theorem endWalk_of_none (noDrift : (endWalk state).2.drift = none) : (endWalk state).2 = state := by
  by_cases started : state.drift = none
  · rw [endWalk, advance_of_none started] at noDrift ⊢
    dsimp only at noDrift ⊢
    split at noDrift
    · rfl
    · cases noDrift
  · rw [endWalk, advance_of_drift started]

theorem walk_last (noDrift : (walk types program state).2.drift = none) :
    (walk types program state).2 = (inferClasses program.classes types (beginWalk state).2).2 :=
  endWalk_of_none noDrift

/-- A walk that learns nothing leaves the hierarchy and the tree as they are. -/
theorem walk_quiet (quiet : Quiet (walk types program state).2) :
    state.drift = none ∧ (walk types program state).2.hierarchy = state.hierarchy ∧
      (walk types program state).2.tree = state.tree := by
  have last := walk_last quiet.2
  rw [last] at quiet ⊢
  obtain ⟨quiet, hierarchy, tree⟩ :=
    (inferClasses_runs program.classes types (beginWalk state).2).1.quiet quiet
  by_cases noDrift : state.drift = none
  · have begun := beginWalk_of_none noDrift
    exact ⟨noDrift, hierarchy.trans (by rw [begun]), tree.trans (by rw [begun])⟩
  · rw [beginWalk, advance_of_drift noDrift] at quiet
    exact absurd quiet.2 noDrift

/-- An idle walk finds the same static types where there were none before. -/
theorem walk_idle (idle : Idle (beginWalk state).2 (walk types program state).2) :
    walk types ⟨untypedClasses program.classes types⟩ state = walk types program state := by
  have same := (inferClasses_follows program.classes types).same (beginWalk state).2
    (walk_last idle.noDrift ▸ idle)
  change ((⟨(inferClasses (untypedClasses program.classes types) types (beginWalk state).2).1⟩ : Program),
    (endWalk (inferClasses (untypedClasses program.classes types) types (beginWalk state).2).2).2) = _
  rw [same]
  rfl

/-- A walk that learns nothing finds the same static types where there were none before. -/
theorem walk_follows (quiet : Quiet (walk types program state).2) :
    walk types ⟨untypedClasses program.classes types⟩ state = walk types program state :=
  walk_idle quiet.idle

/-- The walk after the one that has left this program and this state. -/
def nextWalk (types : ClassTypes) (left : Program × InferenceState) : Program × InferenceState :=
  walk types left.1 left.2

/-- Two walks in a row that learn nothing are followed by nothing else. -/
theorem isFixedPt_of_quiet (one : Quiet (walk types program state).2)
    (two : Quiet (nextWalk types (walk types program state)).2) :
    Function.IsFixedPt (nextWalk types) (walk types program state) := by
  obtain ⟨noDrift, hierarchy, tree⟩ := walk_quiet one
  have begins : (beginWalk (walk types program state).2).2 = (beginWalk state).2 := by
    rw [beginWalk_of_none one.2, beginWalk_of_none noDrift, hierarchy, tree, one.2, noDrift]
  calc nextWalk types (walk types program state)
      = walk types ⟨untypedClasses (walk types program state).1.classes types⟩
          (walk types program state).2 := (walk_follows two).symm
    _ = walk types ⟨untypedClasses program.classes types⟩ (walk types program state).2 := by
        rw [show untypedClasses (walk types program state).1.classes types =
          untypedClasses program.classes types from inferClasses_untyped _ _ _]
    _ = walk types ⟨untypedClasses program.classes types⟩ state := walk_congr begins
    _ = walk types program state := walk_follows one

/-- With nothing open, a walk that learns nothing is followed by nothing else. -/
theorem isFixedPt_of_closed (closed : state.Consistent True) (quiet : Quiet (walk types program state).2)
    (noDrift : (nextWalk types (walk types program state)).2.drift = none) :
    Function.IsFixedPt (nextWalk types) (walk types program state) := by
  obtain ⟨started, hierarchy, tree⟩ := walk_quiet quiet
  have begins : (beginWalk (walk types program state).2).2 = (beginWalk state).2 := by
    rw [beginWalk_of_none quiet.2, beginWalk_of_none started, hierarchy, tree, quiet.2, started]
  have begun : (beginWalk (walk types program state).2).2.Consistent True := by
    rw [begins, beginWalk_of_none started]
    exact ⟨closed.hierarchy, closed.tree⟩
  calc nextWalk types (walk types program state)
      = walk types ⟨untypedClasses (walk types program state).1.classes types⟩
          (walk types program state).2 := (walk_idle ⟨noDrift, Or.inr begun⟩).symm
    _ = walk types ⟨untypedClasses program.classes types⟩ (walk types program state).2 := by
        rw [show untypedClasses (walk types program state).1.classes types =
          untypedClasses program.classes types from inferClasses_untyped _ _ _]
    _ = walk types ⟨untypedClasses program.classes types⟩ state := walk_congr begins
    _ = walk types program state := walk_follows quiet

end

end Inference

end CoolLang
