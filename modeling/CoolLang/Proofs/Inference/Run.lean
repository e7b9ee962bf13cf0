import CoolLang.Inference.Walk
import CoolLang.Program.Nesting
import CoolLang.Program.Notes
import CoolLang.Proofs.Scope.Traversal
import CoolLang.Proofs.Stateful

/-!
What a walk of inference does, step by step. It enters and leaves the scopes that the syntax tells, in
that order, and learns in between; the program that it returns differs in static types only
(`Inference.walk_runs`). What each step keeps is kept by every walk.
-/

namespace CoolLang

namespace Nest

theorem marksAll_append (front back : List Nest) :
    marksAll (front ++ back) = marksAll front ++ marksAll back := by
  induction front with
  | nil => rfl
  | cons nest nests ih => rw [List.cons_append, marksAll, marksAll, ih, List.append_assoc]

theorem marksAll_cons (inner nests : List Nest) :
    marksAll (.scope inner :: nests) =
      [.enter] ++ (marksAll inner ++ ([.leave] ++ marksAll nests)) := by
  rw [marksAll, marks, List.cons_append, List.append_assoc]
  rfl

theorem marksAll_single (inner : List Nest) :
    marksAll [.scope inner] = [.enter] ++ (marksAll inner ++ [.leave]) := by
  rw [marksAll_cons, marksAll, List.append_nil]

end Nest

namespace Inference

/-- A step of a walk that lets a declaration learn. -/
inductive Lesson where
  | hint (id : VariableId) (type : TypeId)
  | value (id : VariableId) (type : TypeId)
  | merge (owner : TypeId) (name : String) (place : Nat) (id : VariableId)
  | argument (owner : TypeId) (name : String) (place : Nat) (type : TypeId)
  | result (owner : TypeId) (name : String) (type : TypeId)
  | record (owner : TypeId) (scope : ScopeId)

def Lesson.learn : Lesson → Inference Unit
  | hint id type => observeHint id type
  | value id type => observeValue id type
  | merge owner name place id => mergeParam owner name place id
  | argument owner name place type =>
      updateParam owner name place fun hierarchy info => info.observeValue hierarchy.union type
  | result owner name type => observeResult owner name type
  | record owner scope => recordAttributes owner scope

/-- The states that steps lead through, with the marks of those that move the cursor. -/
inductive Runs : List ScopeMark → InferenceState → InferenceState → Prop where
  | done {state : InferenceState} : Runs [] state state
  | move {mark : ScopeMark} {marks : List ScopeMark} {state after : InferenceState} :
      Runs marks (moveCursor (fun tree cursor => cursor.move tree mark) state).2 after →
      Runs (mark :: marks) state after
  | learn {marks : List ScopeMark} {state after : InferenceState} (lesson : Lesson) :
      Runs marks (lesson.learn state).2 after → Runs marks state after

theorem Runs.append {first second : List ScopeMark} {before between after : InferenceState}
    (one : Runs first before between) (two : Runs second between after) :
    Runs (first ++ second) before after := by
  induction one with
  | done => exact two
  | move _ ih => exact .move (ih two)
  | learn lesson _ ih => exact .learn lesson (ih two)

instance : Composes Runs where
  refl _ := .done
  trans := .append

variable {current : TypeId} {state after : InferenceState}

/-! ### What steps keep -/

theorem advance_of_none {change : InferenceState → InferenceState} (noDrift : state.drift = none) :
    advance change state = ((), change state) := by
  change ((), if state.drift.isSome then state else change state) = _
  rw [noDrift]
  rfl

theorem advance_of_drift {change : InferenceState → InferenceState} (drift : state.drift ≠ none) :
    advance change state = ((), state) := by
  change ((), if state.drift.isSome then state else change state) = _
  rw [if_pos (Option.isSome_iff_ne_none.mpr drift)]

/-- A step either changes a state or, after a drift, leaves it as it is. -/
theorem advance_preserves (holds : InferenceState → Prop) {change : InferenceState → InferenceState}
    (kept : holds state) (changed : state.drift = none → holds (change state)) : holds (advance change state).2 := by
  by_cases noDrift : state.drift = none
  · rw [advance_of_none noDrift]
    exact changed noDrift
  · rw [advance_of_drift noDrift]
    exact kept

/-- The states before and after declarations may have learned something. -/
def Learned (before after : InferenceState) : Prop :=
  after = before ∨ before.drift = none ∧ ∃ hierarchy vars, after = { before with
    hierarchy := hierarchy
    tree := ⟨before.tree.nodes, vars⟩
    changed := true }

theorem Learned.trans {before between after : InferenceState} (one : Learned before between)
    (two : Learned between after) : Learned before after := by
  rcases one with rfl | ⟨noDrift, hierarchy, vars, rfl⟩
  · exact two
  · rcases two with rfl | ⟨_, hierarchy', vars', rfl⟩
    · exact Or.inr ⟨noDrift, hierarchy, vars, rfl⟩
    · exact Or.inr ⟨noDrift, hierarchy', vars', rfl⟩

/-- Learning does not move the cursor. -/
theorem Learned.cursor {before after : InferenceState} (learned : Learned before after) :
    after.cursor = before.cursor ∧ after.drift = before.drift ∧ after.tree.nodes = before.tree.nodes := by
  rcases learned with rfl | ⟨_, _, _, rfl⟩
  · exact ⟨rfl, rfl, rfl⟩
  · exact ⟨rfl, rfl, rfl⟩

theorem updateVariable_learned (id : VariableId) (learn : Hierarchy → Variable → Variable) :
    Learned state (updateVariable id learn state).2 := by
  refine advance_preserves (Learned state) (Or.inl rfl) fun noDrift => ?_
  dsimp only
  split
  · exact Or.inl rfl
  · exact Or.inr ⟨noDrift, _, _, rfl⟩

theorem updateMethod_learned (owner : TypeId) (name : String) (learn : Hierarchy → Method → Method) :
    Learned state (updateMethod owner name learn state).2 := by
  refine advance_preserves (Learned state) (Or.inl rfl) fun noDrift => ?_
  dsimp only
  split
  · exact Or.inl rfl
  · split
    · exact Or.inl rfl
    · exact Or.inr ⟨noDrift, _, _, rfl⟩

theorem recordAttributes_learned (owner : TypeId) (scope : ScopeId) :
    Learned state (recordAttributes owner scope state).2 := by
  refine advance_preserves (Learned state) (Or.inl rfl) fun noDrift => ?_
  dsimp only
  split
  · exact Or.inl rfl
  · exact Or.inr ⟨noDrift, _, _, rfl⟩

theorem mergeParam_of_none {owner : TypeId} {name : String} {place : Nat} (id : VariableId)
    (unknown : (((state.hierarchy.info owner).method? name).bind fun method =>
      method.params[place]?) = none) : mergeParam owner name place id state = ((), state) := by
  unfold mergeParam
  simp only [bind, StateT.bind, get, getThe, MonadStateOf.get, StateT.get, pure]
  rw [unknown]
  rfl

theorem mergeParam_of_some {owner : TypeId} {name : String} {place : Nat} {known : Variable}
    (id : VariableId) (isKnown : (((state.hierarchy.info owner).method? name).bind fun method =>
      method.params[place]?) = some known) :
    mergeParam owner name place id state =
      let next := (updateVariable id (fun hierarchy info => info.merge hierarchy.union known) state).2
      updateParam owner name place
        (fun hierarchy known => known.merge hierarchy.union (next.tree.variableAt id)) next := by
  unfold mergeParam
  simp only [bind, StateT.bind, get, getThe, MonadStateOf.get, StateT.get, pure]
  rw [isKnown]
  rfl

theorem mergeParam_learned (owner : TypeId) (name : String) (place : Nat) (id : VariableId) :
    Learned state (mergeParam owner name place id state).2 := by
  cases isKnown : ((state.hierarchy.info owner).method? name).bind fun method => method.params[place]? with
  | none =>
      rw [mergeParam_of_none id isKnown]
      exact Or.inl rfl
  | some known =>
      rw [mergeParam_of_some id isKnown]
      exact (updateVariable_learned id _).trans (updateMethod_learned owner name _)

theorem learn_learned (lesson : Lesson) : Learned state (lesson.learn state).2 := by
  cases lesson with
  | hint | value => exact updateVariable_learned _ _
  | merge => exact mergeParam_learned ..
  | argument | result => exact updateMethod_learned ..
  | record => exact recordAttributes_learned ..

/-! ### Steps -/

theorem runs_openScope : Yields Runs [.enter] (fun _ => True) openScope :=
  fun _ => ⟨.move .done, trivial⟩

theorem runs_closeScope : Yields Runs [.leave] (fun _ => True) closeScope :=
  fun _ => ⟨.move .done, trivial⟩

theorem runs_learn (lesson : Lesson) : Yields Runs [] (fun _ => True) lesson.learn :=
  fun _ => ⟨.learn lesson .done, trivial⟩

theorem runs_noted (note : Note) (type : TypeId) :
    Yields Runs [] (fun after => after.untyped = note.untyped) (noted note type) := by
  refine Yields.get.bind fun state _ => .pure ?_
  split <;> rfl

theorem runs_lookUp (name : String) : Yields Runs [] (fun _ => True) (lookUp name) :=
  Yields.get.bind fun _ _ => .skip

theorem runs_typeOf (id : VariableId) : Yields Runs [] (fun _ => True) (typeOf id) :=
  Yields.get.bind fun _ _ => .skip

theorem runs_inferName (hint : Option TypeId) (name : String) :
    Yields Runs [] (fun _ => True) (inferName current hint name) := by
  refine (runs_lookUp name).bind fun id _ => ?_
  cases id with
  | none => exact .skip
  | some id =>
      cases hint with
      | none => exact (runs_typeOf id).bind fun _ _ => .skip
      | some hint =>
          exact (runs_learn (.hint id hint)).bind fun _ _ => (runs_typeOf id).bind fun _ _ => .skip

theorem runs_targetHint (id : Option VariableId) :
    Yields Runs [] (fun _ => True) (targetHint current id) := by
  cases id with
  | none => exact .skip
  | some id => exact (runs_typeOf id).bind fun _ _ => .skip

theorem runs_observeTarget (target : Ident) (id : Option VariableId) (type : TypeId) :
    Yields Runs [] (fun _ => True) (observeTarget target id type) := by
  cases id with
  | none => exact .skip
  | some id =>
      unfold observeTarget
      dsimp only
      split
      · exact .skip
      · exact runs_learn (.value id type)

theorem runs_observeArgument (callee : Option (TypeId × Method)) (place : Nat) (type : TypeId) :
    Yields Runs [] (fun _ => True) (observeArgument callee place type) := by
  cases callee with
  | none => exact .skip
  | some callee =>
      unfold observeArgument
      dsimp only
      split
      · exact runs_learn (.argument callee.1 callee.2.name place type)
      · exact .skip

/-- A run whose marks a cursor can go by drifts nowhere, and leaves the scopes as they are. -/
theorem Runs.moves {marks : List ScopeMark} {before after : InferenceState} {last : Cursor}
    (runs : Runs marks before after) (noDrift : before.drift = none)
    (moved : before.cursor.moves before.tree marks = .ok last) :
    after.drift = none ∧ after.cursor = last ∧ after.tree.nodes = before.tree.nodes := by
  induction runs with
  | done =>
      cases moved
      exact ⟨noDrift, rfl, rfl⟩
  | @move mark marks state after _ ih =>
      rw [Cursor.moves_cons] at moved
      cases step : state.cursor.move state.tree mark with
      | error drift =>
          rw [step] at moved
          cases moved
      | ok next =>
          rw [step] at moved
          rw [moveCursor, advance_of_none noDrift] at ih
          simp only [step] at ih
          exact ih noDrift moved
  | @learn marks state after lesson _ ih =>
      have learned : Learned state (lesson.learn state).2 := learn_learned lesson
      rcases learned with same | ⟨_, hierarchy, vars, same⟩
      · rw [same] at ih
        exact ih noDrift moved
      · rw [same] at ih
        exact ih noDrift ((Cursor.moves_congr (fun _ => rfl) (fun _ => rfl) _ _).trans moved)

/-- A state in which marks are still ahead that the cursor can go by. -/
structure Guided (marks : List ScopeMark) (state : InferenceState) : Prop where
  noDrift : state.drift = none
  moves : ∃ last, state.cursor.moves state.tree marks = .ok last

/-- Steps by the first marks lead to where the others are ahead. -/
theorem Runs.guided {first second : List ScopeMark} {before after : InferenceState}
    (runs : Runs first before after) (guided : Guided (first ++ second) before) : Guided second after := by
  obtain ⟨last, moved⟩ := guided.moves
  obtain ⟨middle, moved, moved'⟩ := Cursor.exists_of_moves_append moved
  obtain ⟨noDrift, rfl, nodes⟩ := runs.moves guided.noDrift moved
  exact ⟨noDrift, last, (Cursor.moves_of_nodes nodes _ _).trans moved'⟩

/-! ### Expressions -/

section

variable (current)

mutual

theorem infer_runs (hint : Option TypeId) : (expr : Expr) →
    Yields Runs (Nest.marksAll expr.nests) (fun result => result.1.untyped = expr.untyped)
      (infer current hint expr)
  | .integer note value => by
      rw [infer]
      refine (runs_noted note .int).bind fun note same => .pure ?_
      rw [Expr.untyped, Expr.untyped, same]
  | .string note value => by
      rw [infer]
      refine (runs_noted note .string).bind fun note same => .pure ?_
      rw [Expr.untyped, Expr.untyped, same]
  | .boolean note value => by
      rw [infer]
      refine (runs_noted note .bool).bind fun note same => .pure ?_
      rw [Expr.untyped, Expr.untyped, same]
  | .identifier note name => by
      rw [infer]
      refine (runs_inferName hint name).bind fun type _ => (runs_noted note type).bind fun note same =>
        .pure ?_
      rw [Expr.untyped, Expr.untyped, same]
  | .assign note target value => by
      rw [infer, Expr.nests]
      refine (runs_lookUp target.name).bind fun id _ => (runs_targetHint id).bind fun expected _ =>
        (infer_runs expected value).bindSilent fun ⟨value, type⟩ inside =>
        (runs_observeTarget target id type).bind fun _ _ =>
        (runs_noted note type).bind fun note same => .pure ?_
      rw [Expr.untyped, Expr.untyped, same, inside]
  | .dispatch note receiver cast method args => by
      rw [infer, Expr.nests, Nest.marksAll_append]
      refine Yields.get.bind fun state _ => ?_
      refine (inferReceiver_runs _ receiver).bind fun ⟨receiver, receiverType⟩ first => ?_
      refine Yields.get.bind fun state _ => (inferArgs_runs _ 0 args).bindSilent fun args later => ?_
      refine (runs_noted note _).bind fun note same => .pure ?_
      rw [Expr.untyped, Expr.untyped, same, first, later]
  | .cond note test yes no => by
      rw [infer, Expr.nests, Nest.marksAll_append, Nest.marksAll_append]
      refine (infer_runs _ test).bind fun ⟨test, _⟩ first => (infer_runs _ yes).bind
        fun ⟨yes, yesType⟩ second => (infer_runs _ no).bindSilent fun ⟨no, noType⟩ third => ?_
      refine Yields.get.bind fun state _ => (runs_noted note _).bind fun note same => .pure ?_
      rw [Expr.untyped, Expr.untyped, same, first, second, third]
  | .loop note test body => by
      rw [infer, Expr.nests, Nest.marksAll_append]
      refine (infer_runs _ test).bind fun ⟨test, _⟩ first => (infer_runs _ body).bindSilent
        fun ⟨body, _⟩ second => (runs_noted note .object).bind fun note same => .pure ?_
      rw [Expr.untyped, Expr.untyped, same, first, second]
  | .block note body => by
      rw [infer, Expr.nests, Nest.marksAll_single]
      refine runs_openScope.bind fun _ _ => (inferAll_runs hint .object body).bind
        fun ⟨body, type⟩ inside => runs_closeScope.bindSilent fun _ _ =>
        (runs_noted note type).bind fun note same => .pure ?_
      rw [Expr.untyped, Expr.untyped, same, inside]
  | .letIn note bindings body => by
      rw [infer, Expr.nests]
      refine (inferBindings_runs bindings (infer_runs hint body)).bindSilent
        fun ⟨bindings, body, type⟩ inside => (runs_noted note type).bind fun note same => .pure ?_
      rw [Expr.untyped, Expr.untyped, same, inside.1, inside.2]
  | .caseOf note scrutinee branches => by
      rw [infer, Expr.nests, Nest.marksAll_append]
      refine (infer_runs _ scrutinee).bind fun ⟨scrutinee, _⟩ first =>
        (inferBranches_runs hint none branches).bindSilent fun ⟨branches, type⟩ second =>
        (runs_noted note _).bind fun note same => .pure ?_
      rw [Expr.untyped, Expr.untyped, same, first, second]
  | .new note written => by
      rw [infer]
      refine Yields.get.bind fun state _ => (runs_noted note _).bind fun note same => .pure ?_
      rw [Expr.untyped, Expr.untyped, same]
  | .isVoid note operand => by
      rw [infer, Expr.nests]
      refine (infer_runs _ operand).bindSilent fun ⟨operand, _⟩ inside =>
        (runs_noted note .bool).bind fun note same => .pure ?_
      rw [Expr.untyped, Expr.untyped, same, inside]
  | .not note operand => by
      rw [infer, Expr.nests]
      refine (infer_runs _ operand).bindSilent fun ⟨operand, _⟩ inside =>
        (runs_noted note .bool).bind fun note same => .pure ?_
      rw [Expr.untyped, Expr.untyped, same, inside]
  | .complement note operand => by
      rw [infer, Expr.nests]
      refine (infer_runs _ operand).bindSilent fun ⟨operand, _⟩ inside =>
        (runs_noted note .int).bind fun note same => .pure ?_
      rw [Expr.untyped, Expr.untyped, same, inside]
  | .binary note operator left right => by
      rw [Expr.nests, Nest.marksAll_append]
      -- the operands of an equality expect each other's type
      have operands (first : Option TypeId) (second : TypeId → Option TypeId) (type : TypeId) :
          Yields Runs (Nest.marksAll left.nests ++ Nest.marksAll right.nests)
            (fun result => result.1.untyped = (Expr.binary note operator left right).untyped)
            (do
              let (left, leftType) ← infer current first left
              let (right, _) ← infer current (second leftType) right
              return (Expr.binary (← noted note type) operator left right, type)) := by
        refine (infer_runs _ left).bind fun ⟨left, leftType⟩ one => (infer_runs _ right).bindSilent
          fun ⟨right, _⟩ two => (runs_noted note type).bind fun note same => .pure ?_
        rw [Expr.untyped, Expr.untyped, same, one, two]
      by_cases equality : operator = .equal
      · subst equality
        rw [infer]
        exact operands (right.type?.bind TypeId.expected?) TypeId.expected? .bool
      · rw [infer]
        · exact operands (some .int) (fun _ => some .int) operator.resultType
        · exact equality

theorem inferReceiver_runs (hint : Option TypeId) : (receiver : Option Expr) →
    Yields Runs (Nest.marksAll (Expr.nestsOption receiver))
      (fun result => Expr.untypedOption result.1 = Expr.untypedOption receiver)
      (inferReceiver current hint receiver)
  | none => by
      rw [inferReceiver]
      exact .pure rfl
  | some receiver => by
      rw [inferReceiver, Expr.nestsOption]
      refine (infer_runs hint receiver).bindSilent fun ⟨receiver, type⟩ same => .pure ?_
      rw [Expr.untypedOption, Expr.untypedOption, same]

theorem inferArgs_runs (callee : Option (TypeId × Method)) (place : Nat) : (args : List Expr) →
    Yields Runs (Nest.marksAll (Expr.nestsAll args))
      (fun result => Expr.untypedAll result = Expr.untypedAll args)
      (inferArgs current callee place args)
  | [] => by
      rw [inferArgs]
      exact .pure rfl
  | arg :: args => by
      rw [inferArgs, Expr.nestsAll, Nest.marksAll_append]
      refine (infer_runs _ arg).bind fun ⟨arg, type⟩ first =>
        (runs_observeArgument callee place type).bind fun _ _ =>
        (inferArgs_runs callee (place + 1) args).bindSilent fun args later => .pure ?_
      rw [Expr.untypedAll, Expr.untypedAll, first, later]

theorem inferAll_runs (hint : Option TypeId) (last : TypeId) : (exprs : List Expr) →
    Yields Runs (Nest.marksAll (Expr.nestsAll exprs))
      (fun result => Expr.untypedAll result.1 = Expr.untypedAll exprs)
      (inferAll current hint last exprs)
  | [] => by
      rw [inferAll]
      exact .pure rfl
  | expr :: exprs => by
      rw [inferAll, Expr.nestsAll, Nest.marksAll_append]
      refine (infer_runs _ expr).bind fun ⟨expr, type⟩ first =>
        (inferAll_runs hint type exprs).bindSilent fun ⟨exprs, type⟩ later => .pure ?_
      rw [Expr.untypedAll, Expr.untypedAll, first, later]

theorem inferBindings_runs {body : Inference (Expr × TypeId)} {inner : List Nest} {value : Expr} :
    (bindings : List (Binding Expr)) →
    Yields Runs (Nest.marksAll inner) (fun result => result.1.untyped = value.untyped) body →
    Yields Runs (Nest.marksAll (Expr.nestsBindings inner bindings))
      (fun result => Expr.untypedBindings result.1 = Expr.untypedBindings bindings ∧
        result.2.1.untyped = value.untyped)
      (inferBindings current bindings body)
  | [], runs => by
      rw [inferBindings, Expr.nestsBindings]
      exact runs.bindSilent fun ⟨body, type⟩ same => .pure ⟨rfl, same⟩
  | ⟨name, written, init⟩ :: bindings, runs => by
      rw [inferBindings, Expr.nestsBindings, Nest.marksAll_append, Nest.marksAll_single]
      refine Yields.get.bind fun state _ => (inferInit_runs _ init).bind fun typed first =>
        runs_openScope.bind fun scope _ => Yields.get.bind fun state _ => ?_
      have rest : Yields Runs (Nest.marksAll (Expr.nestsBindings inner bindings) ++ [.leave])
          (fun result => Expr.untypedBindings result.1 =
              Expr.untypedBindings (⟨name, written, init⟩ :: bindings) ∧
            result.2.1.untyped = value.untyped)
          (do
            let (bindings, body, type) ← inferBindings current bindings body
            closeScope
            return (⟨name, written, typed.map Prod.fst⟩ :: bindings, body, type)) := by
        refine (inferBindings_runs bindings runs).bind fun ⟨bindings, body, type⟩ later =>
          runs_closeScope.bindSilent fun _ _ => .pure ⟨?_, later.2⟩
        rw [Expr.untypedBindings, Expr.untypedBindings, first, later.1]
      dsimp only
      split
      · exact (runs_learn (.value _ _)).bind fun _ _ => rest
      · exact rest

theorem inferInit_runs (hint : Option TypeId) : (init : Option Expr) →
    Yields Runs (Nest.marksAll (Expr.nestsOption init))
      (fun result => Expr.untypedOption (result.map Prod.fst) = Expr.untypedOption init)
      (inferInit current hint init)
  | none => by
      rw [inferInit]
      exact .pure rfl
  | some init => by
      rw [inferInit, Expr.nestsOption]
      refine (infer_runs hint init).bindSilent fun ⟨init, type⟩ same => .pure ?_
      rw [Option.map_some, Expr.untypedOption, Expr.untypedOption, same]

theorem inferBranches_runs (hint type : Option TypeId) : (branches : List (Branch Expr)) →
    Yields Runs (Nest.marksAll (Expr.nestsBranches branches))
      (fun result => Expr.untypedBranches result.1 = Expr.untypedBranches branches)
      (inferBranches current hint type branches)
  | [] => by
      rw [inferBranches]
      exact .pure rfl
  | ⟨name, written, body⟩ :: branches => by
      rw [inferBranches, Expr.nestsBranches, Nest.marksAll_cons]
      refine runs_openScope.bind fun _ _ => (infer_runs hint body).bind fun ⟨body, bodyType⟩ first =>
        runs_closeScope.bind fun _ _ => Yields.get.bind fun state _ =>
        (inferBranches_runs hint _ branches).bindSilent fun ⟨branches, type⟩ later => .pure ?_
      rw [Expr.untypedBranches, Expr.untypedBranches, first, later]

end

/-! ### Classes -/

theorem mergeParams_runs (owner : TypeId) (name : String) (place : Nat) (ids : List VariableId) :
    Yields Runs [] (fun _ => True) (mergeParams owner name place ids) := by
  induction ids generalizing place with
  | nil => exact .skip
  | cons id ids ih => exact (runs_learn (.merge owner name place id)).bind fun _ _ => ih (place + 1)

theorem inferAttribute_runs (scope : ScopeId) (decl : AttributeDecl) :
    Yields Runs (Nest.marksAll (Expr.nestsOption decl.init))
      (fun result => (Feature.attribute result).untyped = (Feature.attribute decl).untyped)
      (inferAttribute current scope decl) := by
  unfold inferAttribute
  obtain ⟨name, written, init⟩ := decl
  cases init with
  | none => exact .pure rfl
  | some init =>
      dsimp only
      refine Yields.get.bind fun state _ => (infer_runs current _ init).bindSilent
        fun ⟨init, type⟩ same => Yields.get.bind fun state _ => ?_
      have rest : Yields Runs [] (fun result =>
          (Feature.attribute result).untyped = (Feature.attribute ⟨name, written, some init⟩).untyped)
          (pure ⟨name, written, some init⟩ : Inference AttributeDecl) := .pure rfl
      rw [Feature.untyped, Expr.untypedOption, ← same]
      dsimp only
      split
      · exact (runs_learn (.value _ _)).bind fun _ _ => rest
      · exact rest

theorem inferMethod_runs (scope : ScopeId) (decl : MethodDecl) :
    Yields Runs (Nest.marksAll decl.body.nests)
      (fun result => (Feature.method result).untyped = (Feature.method decl).untyped)
      (inferMethod current scope decl) := by
  unfold inferMethod
  refine Yields.get.bind fun state _ => ?_
  dsimp only
  split
  · refine (mergeParams_runs current _ 0 _).bind fun _ _ => (infer_runs current _ decl.body).bindSilent
      fun ⟨body, type⟩ same => (mergeParams_runs current _ 0 _).bind fun _ _ =>
      (runs_learn (.result current decl.name.name type)).bind fun _ _ => .pure ?_
    rw [Feature.untyped, Feature.untyped, same]
  · refine (infer_runs current _ decl.body).bindSilent fun ⟨body, type⟩ same => .pure ?_
    rw [Feature.untyped, Feature.untyped, same]

theorem inferFeature_runs (scope : ScopeId) (feature : Feature) :
    Yields Runs (Nest.marks (.scope feature.nests))
      (fun result => result.untyped = feature.untyped) (inferFeature current scope feature) := by
  unfold inferFeature
  rw [Nest.marks, ← List.singleton_append]
  refine runs_openScope.bind fun inner _ => ?_
  rcases feature with decl | decl
  · exact (inferAttribute_runs current scope decl).bind fun decl same =>
      runs_closeScope.bindSilent fun _ _ => .pure same
  · exact (inferMethod_runs current inner decl).bind fun decl same =>
      runs_closeScope.bindSilent fun _ _ => .pure same

theorem inferFeatures_runs (scope : ScopeId) (features : List Feature) :
    Yields Runs (Nest.marksAll (features.map fun feature => .scope feature.nests))
      (fun result => result.map Feature.untyped = features.map Feature.untyped)
      (inferFeatures current scope features) := by
  induction features with
  | nil => exact .pure rfl
  | cons feature features ih =>
      rw [inferFeatures, List.map_cons, Nest.marksAll]
      refine (inferFeature_runs current scope feature).bind fun feature first =>
        ih.bindSilent fun features later => .pure ?_
      rw [List.map_cons, List.map_cons, first, later]

end

theorem inferClass_runs (current : TypeId) (decl : ClassDecl) :
    Yields Runs (Nest.marks (.scope decl.nests)) (fun result => result.untyped = decl.untyped)
      (inferClass current decl) := by
  unfold inferClass
  rw [Nest.marks, ← List.singleton_append]
  refine runs_openScope.bind fun scope _ => (inferFeatures_runs current scope decl.features).bind
    fun features same => (runs_learn (.record current scope)).bind fun _ _ =>
    runs_closeScope.bindSilent fun _ _ => .pure ?_
  rw [ClassDecl.untyped, ClassDecl.untyped, same]

theorem inferClasses_runs (decls : List ClassDecl) (types : ClassTypes) :
    Yields Runs (Nest.marksAll (Program.nests ⟨decls⟩ types))
      (fun result => result.map ClassDecl.untyped = decls.map ClassDecl.untyped)
      (inferClasses decls types) := by
  induction decls generalizing types with
  | nil => exact .pure rfl
  | cons decl decls ih =>
      rcases types with _ | ⟨_ | type, types⟩
      · exact .pure rfl
      · refine (ih types).bindSilent fun decls later => .pure ?_
        rw [List.map_cons, List.map_cons, later]
      · rw [inferClasses, show Program.nests ⟨decl :: decls⟩ (some type :: types) =
          .scope decl.nests :: Program.nests ⟨decls⟩ types from rfl, Nest.marksAll]
        refine (inferClass_runs type decl).bind fun decl first =>
          (ih types).bindSilent fun decls later => .pure ?_
        rw [List.map_cons, List.map_cons, first, later]

/-- A walk goes through the scopes of the program between its first and its last step. -/
theorem walk_runs (types : ClassTypes) (program : Program) (state : InferenceState) :
    ∃ last, Runs (Nest.marksAll (program.nests types)) (beginWalk state).2 last ∧
      (walk types program state).2 = (endWalk last).2 ∧
      (walk types program state).1.untyped = program.untyped := by
  have runs := inferClasses_runs program.classes types (beginWalk state).2
  exact ⟨_, runs.1, rfl, congrArg Program.mk runs.2⟩

end Inference

end CoolLang
