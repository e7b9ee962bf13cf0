import CoolLang.Proofs.Hierarchy.Ancestry
import CoolLang.Proofs.Inference.Run
import CoolLang.Proofs.Program.Notes

/-!
What a walk of inference keeps. A condition on types that holds of all that a hierarchy gives holds of
every type that is inferred, as long as the states that the walk goes through are those that it needs;
and so these need to be kept only by lessons about such types (`Inference.Invariant.typed_infer`).
-/

namespace CoolLang

/-- Whether the static types that are expected of others satisfy a condition. -/
def Note.Hinting (typed : TypeId → Prop) (notes : List Note) : Prop :=
  ∀ note ∈ notes, ∀ type ∈ note.type, type.isConcrete = true → typed type

namespace Note

variable {typed : TypeId → Prop} {note : Note} {notes front back : List Note}

theorem AllTyped.hinting (all : AllTyped typed notes) : Hinting typed notes := by
  intro note member type isType _
  obtain ⟨known, isKnown, holds⟩ := all note member
  rw [isKnown] at isType
  exact Option.some.inj isType ▸ holds

theorem Hinting.tail (hinting : Hinting typed (note :: notes)) : Hinting typed notes :=
  (List.forall_mem_cons.mp hinting).2

theorem Hinting.split (hinting : Hinting typed (front ++ back)) :
    Hinting typed front ∧ Hinting typed back :=
  List.forall_mem_append.mp hinting

end Note

theorem Expr.mem_notes_of_type? {expr : Expr} {type : TypeId} (known : expr.type? = some type) :
    ∃ note ∈ expr.notes, note.type = some type := by
  cases expr <;> exact ⟨_, by rw [notes]; exact List.mem_cons_self, known⟩

namespace Inference

/-- What a lesson inside a class has to be about. -/
def Lesson.Fits (typed : TypeId → Prop) (isLocal : VariableId → Prop) : Lesson → Prop
  | hint _ type | value _ type | argument _ _ _ type | result _ _ type => typed type
  | merge _ _ _ id => isLocal id
  | record _ _ => False

/-- A condition on types, one on the variables that may stand for parameters, and one on states from which a
walk goes by marks, all of which the walk keeps. -/
structure Invariant (typed : TypeId → Prop) (isLocal : VariableId → Prop)
    (ready : List ScopeMark → InferenceState → Prop) : Prop where
  builtins : TypeId.OfBuiltins typed
  move : ∀ mark rest state, ready (mark :: rest) state →
    ready rest (moveCursor (fun tree cursor => cursor.move tree mark) state).2
  learn : ∀ (lesson : Lesson) rest state, lesson.Fits typed isLocal → ready rest state →
    ready rest (lesson.learn state).2
  noDrift : ∀ rest state, ready rest state → state.drift = none
  gives : ∀ rest state, ready rest state → state.hierarchy.Gives typed
  slot : ∀ rest state id current, ready rest state → typed current →
    typed ((state.tree.variableAt id).type.resolveIn current)

theorem hint_none {typed : TypeId → Prop} : ∀ hint ∈ (none : Option TypeId), typed hint :=
  nofun

theorem hint_some {typed : TypeId → Prop} {type : TypeId} (known : typed type) :
    ∀ hint ∈ some type, typed hint := by
  rintro _ ⟨⟩
  exact known

theorem expected?_of_resolveIn {typed : TypeId → Prop} {type current : TypeId}
    (known : typed (type.resolveIn current)) : ∀ hint ∈ type.expected?, typed hint := by
  unfold TypeId.expected?
  intro hint isHint
  split at isHint
  · rename_i concrete
    cases isHint
    rwa [TypeId.resolveIn, if_neg] at known
    rintro rfl
    cases concrete
  · cases isHint

theorem expected?_of_typed {typed : TypeId → Prop} {type : TypeId}
    (known : type.isConcrete = true → typed type) : ∀ hint ∈ type.expected?, typed hint := by
  unfold TypeId.expected?
  intro hint isHint
  split at isHint
  · cases isHint
    exact known ‹_›
  · cases isHint

namespace Invariant

theorem typed_lookUp {ready : List ScopeMark → InferenceState → Prop} (name : String) :
    Consumes ready [] (fun _ => True) (lookUp name) :=
  fun _ _ isReady => ⟨isReady, trivial⟩

variable {typed : TypeId → Prop} {isLocal : VariableId → Prop}
  {ready : List ScopeMark → InferenceState → Prop} {current : TypeId}

section

variable (kept : Invariant typed isLocal ready)
include kept

/-! ### Steps -/

theorem typed_get : Consumes ready []
    (fun state : InferenceState => state.hierarchy.Gives typed ∧
      ∀ id current, typed current → typed ((state.tree.variableAt id).type.resolveIn current))
    MonadState.get :=
  .get fun rest state isReady => ⟨kept.gives rest state isReady,
    fun id current isClass => kept.slot rest state id current isReady isClass⟩

theorem typed_openScope : Consumes ready [.enter] (fun _ => True) openScope :=
  fun rest state isReady => ⟨kept.move .enter rest state isReady, trivial⟩

theorem typed_closeScope : Consumes ready [.leave] (fun _ => True) closeScope :=
  fun rest state isReady => ⟨kept.move .leave rest state isReady, trivial⟩

theorem typed_learn (lesson : Lesson) (fits : lesson.Fits typed isLocal) :
    Consumes ready [] (fun _ => True) lesson.learn :=
  fun rest state isReady => ⟨kept.learn lesson rest state fits isReady, trivial⟩

theorem typed_noted (note : Note) {type : TypeId} (known : typed type) :
    Consumes ready [] (fun after => Note.AllTyped typed [after]) (noted note type) := by
  intro rest state isReady
  refine ⟨isReady, ?_⟩
  change Note.AllTyped typed [if state.drift.isSome then note else note.typed type]
  rw [kept.noDrift rest state isReady]
  exact .cons_typed known .nil

theorem typed_typeOf (id : VariableId) :
    Consumes ready [] (fun type => ∀ current, typed current → typed (type.resolveIn current)) (typeOf id) :=
  fun rest state isReady => ⟨isReady, fun current isClass => kept.slot rest state id current isReady isClass⟩

theorem typed_inferName (isClass : typed current) {hint : Option TypeId} (ofHint : ∀ type ∈ hint, typed type)
    (name : String) : Consumes ready [] typed (inferName current hint name) := by
  refine (typed_lookUp name).bind fun id _ => ?_
  cases id with
  | none => exact .pure kept.builtins.error
  | some id =>
      have rest : Consumes ready [] typed (do return (← typeOf id).resolveIn current) :=
        (kept.typed_typeOf id).bind fun type known => .pure (known current isClass)
      cases hint with
      | none => exact rest
      | some hint => exact (kept.typed_learn (.hint id hint) (ofHint hint rfl)).bind fun _ _ => rest

theorem typed_targetHint (isClass : typed current) (id : Option VariableId) :
    Consumes ready [] (fun hint => ∀ type ∈ hint, typed type) (targetHint current id) := by
  cases id with
  | none => exact .pure nofun
  | some id =>
      exact (kept.typed_typeOf id).bind fun type known =>
        .pure (expected?_of_typed fun _ => known current isClass)

theorem typed_observeTarget (target : Ident) (id : Option VariableId) {type : TypeId} (known : typed type) :
    Consumes ready [] (fun _ => True) (observeTarget target id type) := by
  cases id with
  | none => exact .pure trivial
  | some id =>
      unfold observeTarget
      dsimp only
      split
      · exact .pure trivial
      · exact kept.typed_learn (.value id type) known

theorem typed_observeArgument (callee : Option (TypeId × Method)) (place : Nat) {type : TypeId}
    (known : typed type) : Consumes ready [] (fun _ => True) (observeArgument callee place type) := by
  cases callee with
  | none => exact .pure trivial
  | some callee =>
      unfold observeArgument
      dsimp only
      split
      · exact kept.typed_learn (.argument callee.1 callee.2.name place type) known
      · exact .pure trivial

theorem typed_mergeParams (owner : TypeId) (name : String) (place : Nat) (ids : List VariableId)
    (areLocal : ∀ id ∈ ids, isLocal id) :
    Consumes ready [] (fun _ => True) (mergeParams owner name place ids) := by
  induction ids generalizing place with
  | nil => exact .pure trivial
  | cons id ids ih =>
      obtain ⟨first, later⟩ := List.forall_mem_cons.mp areLocal
      exact (kept.typed_learn (.merge owner name place id) first).bind fun _ _ => ih (place + 1) later

end

/-! ### What a hierarchy tells -/

section

variable {hierarchy : Hierarchy} (gives : hierarchy.Gives typed)
include gives

theorem typed_castType (written : Ident) : typed (castType hierarchy written) := by
  unfold castType TypeId.expected?
  cases found : hierarchy.find? written.name with
  | none => exact gives.error
  | some type =>
      dsimp only [Option.getD_some]
      split
      · exact gives.written _ _ found ‹_›
      · exact gives.error

theorem typed_dispatchResult {receiver type : TypeId} (method : Ident) (args : Nat)
    (ofReceiver : typed receiver) (ofType : typed type) :
    typed (dispatchResult (callee? hierarchy type method args) receiver type) := by
  unfold dispatchResult
  cases found : callee? hierarchy type method args with
  | none =>
      dsimp only
      split
      · rename_i isAuto
        exact isAuto ▸ ofType
      · exact gives.error
  | some callee =>
      unfold callee? at found
      split at found
      · rename_i concrete
        exact gives.result _ _ _ _ receiver concrete (Option.filter_eq_some_iff.mp found).1 ofReceiver
      · cases found

theorem typed_paramAt (type : TypeId) (method : Ident) (args place : Nat) :
    ∀ hint ∈ (paramAt (callee? hierarchy type method args) place).bind fun param => param.type.expected?,
      typed hint := by
  intro hint isHint
  obtain ⟨param, isParam, isHint⟩ := Option.bind_eq_some_iff.mp isHint
  obtain ⟨⟨owner, known⟩, found, isParam⟩ := Option.bind_eq_some_iff.mp isParam
  unfold callee? at found
  split at found
  · rename_i concrete
    refine expected?_of_typed (fun ofParam => ?_) hint isHint
    exact gives.param _ _ _ _ concrete (Option.filter_eq_some_iff.mp found).1 param
      (List.mem_of_getElem? isParam) ofParam
  · cases found

theorem typed_bindingType (isClass : typed current) (written : Option Ident) :
    ∀ hint ∈ (bindingType hierarchy current written).expected?, typed hint := by
  cases written with
  | none => exact nofun
  | some written =>
      refine expected?_of_typed fun concrete => ?_
      rw [bindingType] at concrete ⊢
      cases found : hierarchy.find? written.name with
      | none => exact gives.error
      | some type =>
          rw [found] at concrete
          exact gives.resolveIn isClass found concrete

theorem typed_newType (isClass : typed current) (written : Ident) :
    typed (newType hierarchy current written) := by
  unfold newType
  cases found : hierarchy.find? written.name with
  | none => exact gives.error
  | some type =>
      dsimp only [TypeId.expected?]
      split
      · exact gives.resolveIn isClass found ‹_›
      · exact gives.error

end

/-! ### Expressions -/

mutual

theorem typed_infer (kept : Invariant typed isLocal ready) (isClass : typed current)
    {hint : Option TypeId} (ofHint : ∀ type ∈ hint, typed type) : (expr : Expr) →
    Note.Hinting typed expr.notes →
    Consumes ready (Nest.marksAll expr.nests)
      (fun result => Note.AllTyped typed result.1.notes ∧ typed result.2) (infer current hint expr)
  | .integer note value, _ => by
      rw [infer]
      refine (kept.typed_noted note kept.builtins.int).bind fun note same => .pure ?_
      exact ⟨by rwa [Expr.notes], kept.builtins.int⟩
  | .string note value, _ => by
      rw [infer]
      refine (kept.typed_noted note kept.builtins.string).bind fun note same => .pure ?_
      exact ⟨by rwa [Expr.notes], kept.builtins.string⟩
  | .boolean note value, _ => by
      rw [infer]
      refine (kept.typed_noted note kept.builtins.bool).bind fun note same => .pure ?_
      exact ⟨by rwa [Expr.notes], kept.builtins.bool⟩
  | .identifier note name, _ => by
      rw [infer]
      refine (kept.typed_inferName isClass ofHint name).bind fun type known =>
        (kept.typed_noted note known).bind fun note same => .pure ?_
      exact ⟨by rwa [Expr.notes], known⟩
  | .assign note target value, hinting => by
      rw [Expr.notes] at hinting
      rw [infer, Expr.nests]
      refine (typed_lookUp target.name).bind fun id _ =>
        (kept.typed_targetHint isClass id).bind fun expected ofExpected =>
        (typed_infer kept isClass ofExpected value hinting.tail).bindSilent
        fun ⟨value, type⟩ ⟨inside, known⟩ => (kept.typed_observeTarget target id known).bind fun _ _ =>
        (kept.typed_noted note known).bind fun note same => .pure ?_
      exact ⟨by rw [Expr.notes]; exact same.cons inside, known⟩
  | .dispatch note receiver cast method args, hinting => by
      rw [Expr.notes] at hinting
      rw [infer, Expr.nests, Nest.marksAll_append]
      refine kept.typed_get.bind fun before ⟨gives, _⟩ => ?_
      have ofCast : ∀ type ∈ (cast.map (castType before.hierarchy)).bind TypeId.expected?, typed type := by
        cases cast with
        | none => exact hint_none
        | some written => exact expected?_of_typed fun _ => typed_castType gives written
      refine (typed_inferReceiver kept isClass ofCast receiver hinting.tail.split.1).bind
        fun ⟨receiver, receiverType⟩ ⟨first, known⟩ => ?_
      have ofType : typed ((cast.map (castType before.hierarchy)).getD receiverType) := by
        cases cast with
        | none => exact known
        | some written => exact typed_castType gives written
      refine kept.typed_get.bind fun state ⟨gives, _⟩ =>
        (typed_inferArgs kept isClass (typed_paramAt gives _ method args.length) 0 args
          hinting.tail.split.2).bindSilent fun args' later =>
        (kept.typed_noted note (typed_dispatchResult gives method args.length known ofType)).bind
        fun note same => .pure ?_
      exact ⟨by rw [Expr.notes]; exact same.cons (first.append later),
        typed_dispatchResult gives method args.length known ofType⟩
  | .cond note test yes no, hinting => by
      rw [Expr.notes] at hinting
      obtain ⟨ofTest, inner⟩ := hinting.tail.split
      rw [infer, Expr.nests, Nest.marksAll_append, Nest.marksAll_append]
      refine (typed_infer kept isClass (hint_some kept.builtins.bool) test ofTest).bind
        fun ⟨test, _⟩ ⟨first, _⟩ => (typed_infer kept isClass ofHint yes inner.split.1).bind
        fun ⟨yes, yesType⟩ ⟨second, ofYes⟩ => (typed_infer kept isClass ofHint no inner.split.2).bindSilent
        fun ⟨no, noType⟩ ⟨third, ofNo⟩ => kept.typed_get.bind fun state ⟨gives, _⟩ => ?_
      have known := gives.union ofYes ofNo
      refine (kept.typed_noted note known).bind fun note same => .pure ?_
      exact ⟨by rw [Expr.notes]; exact same.cons (first.append (second.append third)), known⟩
  | .loop note test body, hinting => by
      rw [Expr.notes] at hinting
      rw [infer, Expr.nests, Nest.marksAll_append]
      refine (typed_infer kept isClass (hint_some kept.builtins.bool) test
        hinting.tail.split.1).bind fun ⟨test, _⟩ ⟨first, _⟩ =>
        (typed_infer kept isClass hint_none body hinting.tail.split.2).bindSilent
        fun ⟨body, _⟩ ⟨second, _⟩ => (kept.typed_noted note kept.builtins.object).bind
        fun note same => .pure ?_
      exact ⟨by rw [Expr.notes]; exact same.cons (first.append second), kept.builtins.object⟩
  | .block note body, hinting => by
      rw [Expr.notes] at hinting
      rw [infer, Expr.nests, Nest.marksAll_single]
      refine kept.typed_openScope.bind fun _ _ =>
        (typed_inferAll kept isClass ofHint kept.builtins.object body hinting.tail).bind
        fun ⟨body, type⟩ ⟨inside, known⟩ => kept.typed_closeScope.bindSilent fun _ _ =>
        (kept.typed_noted note known).bind fun note same => .pure ?_
      exact ⟨by rw [Expr.notes]; exact same.cons inside, known⟩
  | .letIn note bindings body, hinting => by
      rw [Expr.notes] at hinting
      rw [infer, Expr.nests]
      refine (typed_inferBindings kept isClass bindings hinting.tail.split.1
        (typed_infer kept isClass ofHint body hinting.tail.split.2)).bindSilent
        fun ⟨bindings, body, type⟩ ⟨first, second, known⟩ => (kept.typed_noted note known).bind
        fun note same => .pure ?_
      exact ⟨by rw [Expr.notes]; exact same.cons (first.append second), known⟩
  | .caseOf note scrutinee branches, hinting => by
      rw [Expr.notes] at hinting
      rw [infer, Expr.nests, Nest.marksAll_append]
      refine (typed_infer kept isClass hint_none scrutinee hinting.tail.split.1).bind
        fun ⟨scrutinee, _⟩ ⟨first, _⟩ => (typed_inferBranches kept isClass ofHint hint_none branches
        hinting.tail.split.2).bindSilent fun ⟨branches, type⟩ ⟨second, ofBranches⟩ => ?_
      have known : typed (type.getD .error) := by
        cases type with
        | none => exact kept.builtins.error
        | some type => exact ofBranches type rfl
      refine (kept.typed_noted note known).bind fun note same => .pure ?_
      exact ⟨by rw [Expr.notes]; exact same.cons (first.append second), known⟩
  | .new note written, _ => by
      rw [infer]
      refine kept.typed_get.bind fun state ⟨gives, _⟩ =>
        (kept.typed_noted note (typed_newType gives isClass written)).bind fun note same => .pure ?_
      exact ⟨by rwa [Expr.notes], typed_newType gives isClass written⟩
  | .isVoid note operand, hinting => by
      rw [Expr.notes] at hinting
      rw [infer, Expr.nests]
      refine (typed_infer kept isClass hint_none operand hinting.tail).bindSilent
        fun ⟨operand, _⟩ ⟨inside, _⟩ => (kept.typed_noted note kept.builtins.bool).bind
        fun note same => .pure ?_
      exact ⟨by rw [Expr.notes]; exact same.cons inside, kept.builtins.bool⟩
  | .not note operand, hinting => by
      rw [Expr.notes] at hinting
      rw [infer, Expr.nests]
      refine (typed_infer kept isClass (hint_some kept.builtins.bool) operand
        hinting.tail).bindSilent fun ⟨operand, _⟩ ⟨inside, _⟩ =>
        (kept.typed_noted note kept.builtins.bool).bind fun note same => .pure ?_
      exact ⟨by rw [Expr.notes]; exact same.cons inside, kept.builtins.bool⟩
  | .complement note operand, hinting => by
      rw [Expr.notes] at hinting
      rw [infer, Expr.nests]
      refine (typed_infer kept isClass (hint_some kept.builtins.int) operand
        hinting.tail).bindSilent fun ⟨operand, _⟩ ⟨inside, _⟩ =>
        (kept.typed_noted note kept.builtins.int).bind fun note same => .pure ?_
      exact ⟨by rw [Expr.notes]; exact same.cons inside, kept.builtins.int⟩
  | .binary note operator left right, hinting => by
      rw [Expr.notes] at hinting
      obtain ⟨ofLeft, ofRight⟩ := hinting.tail.split
      rw [Expr.nests, Nest.marksAll_append]
      -- the operands of an equality expect each other's type
      have operands (first : Option TypeId) (second : TypeId → Option TypeId) {type : TypeId}
          (ofFirst : ∀ type ∈ first, typed type)
          (ofSecond : ∀ type, typed type → ∀ hint ∈ second type, typed hint) (known : typed type) :
          Consumes ready (Nest.marksAll left.nests ++ Nest.marksAll right.nests)
            (fun result => Note.AllTyped typed result.1.notes ∧ typed result.2)
            (do
              let (left, leftType) ← infer current first left
              let (right, _) ← infer current (second leftType) right
              return (Expr.binary (← noted note type) operator left right, type)) := by
        refine (typed_infer kept isClass ofFirst left ofLeft).bind fun ⟨left, leftType⟩ ⟨one, known'⟩ =>
          (typed_infer kept isClass (ofSecond leftType known') right ofRight).bindSilent
          fun ⟨right, _⟩ ⟨two, _⟩ => (kept.typed_noted note known).bind fun note same => .pure ?_
        exact ⟨by rw [Expr.notes]; exact same.cons (one.append two), known⟩
      by_cases equality : operator = .equal
      · subst equality
        rw [infer]
        refine operands (right.type?.bind TypeId.expected?) TypeId.expected? (fun hint isHint => ?_)
          (fun type known => expected?_of_typed fun _ => known) kept.builtins.bool
        obtain ⟨type, isType, isHint⟩ := Option.bind_eq_some_iff.mp isHint
        obtain ⟨note, member, isNote⟩ := Expr.mem_notes_of_type? isType
        exact expected?_of_typed (ofRight note member type isNote) hint isHint
      · rw [infer]
        · exact operands (some .int) (fun _ => some .int) (hint_some kept.builtins.int)
            (fun _ _ => hint_some kept.builtins.int) (kept.builtins.resultType operator)
        · exact equality

theorem typed_inferReceiver (kept : Invariant typed isLocal ready) (isClass : typed current)
    {hint : Option TypeId} (ofHint : ∀ type ∈ hint, typed type) : (receiver : Option Expr) →
    Note.Hinting typed (Expr.notesOption receiver) →
    Consumes ready (Nest.marksAll (Expr.nestsOption receiver))
      (fun result => Note.AllTyped typed (Expr.notesOption result.1) ∧ typed result.2)
      (inferReceiver current hint receiver)
  | none, _ => by
      rw [inferReceiver]
      exact .pure ⟨by rw [Expr.notesOption]; exact .nil, isClass⟩
  | some receiver, hinting => by
      rw [inferReceiver, Expr.nestsOption]
      exact (typed_infer kept isClass ofHint receiver hinting).bindSilent
        fun ⟨receiver, type⟩ ⟨inside, known⟩ => .pure ⟨by rwa [Expr.notesOption], known⟩

theorem typed_inferArgs (kept : Invariant typed isLocal ready) (isClass : typed current)
    {callee : Option (TypeId × Method)}
    (ofParams : ∀ place, ∀ hint ∈ (paramAt callee place).bind fun param => param.type.expected?, typed hint)
    (place : Nat) : (args : List Expr) → Note.Hinting typed (Expr.notesAll args) →
    Consumes ready (Nest.marksAll (Expr.nestsAll args))
      (fun result => Note.AllTyped typed (Expr.notesAll result)) (inferArgs current callee place args)
  | [], _ => by
      rw [inferArgs]
      exact .pure (by rw [Expr.notesAll]; exact .nil)
  | arg :: args, hinting => by
      rw [Expr.notesAll] at hinting
      rw [inferArgs, Expr.nestsAll, Nest.marksAll_append]
      exact (typed_infer kept isClass (ofParams place) arg hinting.split.1).bind
        fun ⟨arg, type⟩ ⟨first, known⟩ => (kept.typed_observeArgument callee place known).bind fun _ _ =>
        (typed_inferArgs kept isClass ofParams (place + 1) args hinting.split.2).bindSilent
        fun args later => .pure (by rw [Expr.notesAll]; exact first.append later)

theorem typed_inferAll (kept : Invariant typed isLocal ready) (isClass : typed current)
    {hint : Option TypeId} (ofHint : ∀ type ∈ hint, typed type) {last : TypeId} (ofLast : typed last) :
    (exprs : List Expr) → Note.Hinting typed (Expr.notesAll exprs) →
    Consumes ready (Nest.marksAll (Expr.nestsAll exprs))
      (fun result => Note.AllTyped typed (Expr.notesAll result.1) ∧ typed result.2)
      (inferAll current hint last exprs)
  | [], _ => by
      rw [inferAll]
      exact .pure ⟨by rw [Expr.notesAll]; exact .nil, ofLast⟩
  | expr :: exprs, hinting => by
      rw [Expr.notesAll] at hinting
      have ofExpr : ∀ type ∈ if exprs.isEmpty then hint else none, typed type := by
        split
        · exact ofHint
        · exact nofun
      rw [inferAll, Expr.nestsAll, Nest.marksAll_append]
      exact (typed_infer kept isClass ofExpr expr hinting.split.1).bind
        fun ⟨expr, type⟩ ⟨first, known⟩ => (typed_inferAll kept isClass ofHint known exprs
        hinting.split.2).bindSilent fun ⟨exprs, type⟩ ⟨later, known⟩ =>
        .pure ⟨by rw [Expr.notesAll]; exact first.append later, known⟩

theorem typed_inferBindings (kept : Invariant typed isLocal ready) (isClass : typed current)
    {body : Inference (Expr × TypeId)} {inner : List Nest} : (bindings : List (Binding Expr)) →
    Note.Hinting typed (Expr.notesBindings bindings) →
    Consumes ready (Nest.marksAll inner)
      (fun result => Note.AllTyped typed result.1.notes ∧ typed result.2) body →
    Consumes ready (Nest.marksAll (Expr.nestsBindings inner bindings))
      (fun result => Note.AllTyped typed (Expr.notesBindings result.1) ∧
        Note.AllTyped typed result.2.1.notes ∧ typed result.2.2)
      (inferBindings current bindings body)
  | [], _, ofBody => by
      rw [inferBindings, Expr.nestsBindings]
      exact ofBody.bindSilent fun ⟨body, type⟩ inside => .pure
        ⟨by rw [Expr.notesBindings]; exact .nil, inside⟩
  | ⟨name, written, init⟩ :: bindings, hinting, ofBody => by
      rw [Expr.notesBindings] at hinting
      rw [inferBindings, Expr.nestsBindings, Nest.marksAll_append, Nest.marksAll_single]
      refine kept.typed_get.bind fun state ⟨gives, _⟩ =>
        (typed_inferInit kept isClass (typed_bindingType gives isClass written) init
          hinting.split.1).bind fun init' ⟨first, ofInit⟩ =>
        kept.typed_openScope.bind fun scope _ => kept.typed_get.bind fun state _ => ?_
      have rest : Consumes ready (Nest.marksAll (Expr.nestsBindings inner bindings) ++ [.leave])
          (fun result => Note.AllTyped typed (Expr.notesBindings result.1) ∧
            Note.AllTyped typed result.2.1.notes ∧ typed result.2.2)
          (do
            let (bindings, body, type) ← inferBindings current bindings body
            closeScope
            return (⟨name, written, init'.map Prod.fst⟩ :: bindings, body, type)) :=
        (typed_inferBindings kept isClass bindings hinting.split.2 ofBody).bind
          fun ⟨bindings, body, type⟩ ⟨later, inside⟩ =>
          kept.typed_closeScope.bindSilent fun _ _ => .pure
            ⟨by rw [Expr.notesBindings]; exact first.append later, inside⟩
      dsimp only
      split
      · rename_i init _ _
        exact (kept.typed_learn (.value _ _) (ofInit _ rfl)).bind fun _ _ => rest
      · exact rest

theorem typed_inferInit (kept : Invariant typed isLocal ready) (isClass : typed current)
    {hint : Option TypeId} (ofHint : ∀ type ∈ hint, typed type) : (init : Option Expr) →
    Note.Hinting typed (Expr.notesOption init) →
    Consumes ready (Nest.marksAll (Expr.nestsOption init))
      (fun result => Note.AllTyped typed (Expr.notesOption (result.map Prod.fst)) ∧
        ∀ init ∈ result, typed init.2)
      (inferInit current hint init)
  | none, _ => by
      rw [inferInit]
      exact .pure ⟨by rw [Option.map_none, Expr.notesOption]; exact .nil, nofun⟩
  | some init, hinting => by
      rw [inferInit, Expr.nestsOption]
      refine (typed_infer kept isClass ofHint init hinting).bindSilent
        fun ⟨init, type⟩ ⟨inside, known⟩ => .pure ⟨by rwa [Option.map_some, Expr.notesOption], ?_⟩
      exact fun _ isInit => by cases isInit; exact known

theorem typed_inferBranches (kept : Invariant typed isLocal ready) (isClass : typed current)
    {hint type : Option TypeId} (ofHint : ∀ type ∈ hint, typed type)
    (ofType : ∀ known ∈ type, typed known) : (branches : List (Branch Expr)) →
    Note.Hinting typed (Expr.notesBranches branches) →
    Consumes ready (Nest.marksAll (Expr.nestsBranches branches))
      (fun result => Note.AllTyped typed (Expr.notesBranches result.1) ∧
        ∀ known ∈ result.2, typed known)
      (inferBranches current hint type branches)
  | [], _ => by
      rw [inferBranches]
      exact .pure ⟨by rw [Expr.notesBranches]; exact .nil, ofType⟩
  | ⟨name, written, body⟩ :: branches, hinting => by
      rw [Expr.notesBranches] at hinting
      rw [inferBranches, Expr.nestsBranches, Nest.marksAll_cons]
      refine kept.typed_openScope.bind fun _ _ =>
        (typed_infer kept isClass ofHint body hinting.split.1).bind
        fun ⟨body, bodyType⟩ ⟨first, ofBody⟩ => kept.typed_closeScope.bind fun _ _ =>
        kept.typed_get.bind fun state ⟨gives, _⟩ => ?_
      have joined : ∀ known ∈ some (type.elim bodyType fun type => state.hierarchy.union type bodyType),
          typed known := by
        rintro _ ⟨⟩
        cases type with
        | none => exact ofBody
        | some type => exact gives.union (ofType type rfl) ofBody
      exact (typed_inferBranches kept isClass ofHint joined branches hinting.split.2).bindSilent
        fun ⟨branches, type⟩ ⟨later, known⟩ => .pure
          ⟨by rw [Expr.notesBranches]; exact first.append later, known⟩

end

/-! ### Features -/

section

variable (kept : Invariant typed isLocal ready) (isClass : typed current)
include kept isClass

theorem typed_inferAttribute (scope : ScopeId) (decl : AttributeDecl)
    (hinting : Note.Hinting typed (Feature.attribute decl).notes) :
    Consumes ready (Nest.marksAll (Expr.nestsOption decl.init))
      (fun result => Note.AllTyped typed (Feature.attribute result).notes)
      (inferAttribute current scope decl) := by
  unfold inferAttribute
  obtain ⟨name, written, init⟩ := decl
  cases init with
  | none => exact .pure (by rw [Feature.notes, Expr.notesOption]; exact .nil)
  | some init =>
      refine kept.typed_get.bind fun state ⟨_, slots⟩ => ?_
      have ofHint : ∀ hint ∈ (state.tree.find? scope name.name).bind fun id =>
          (state.tree.variableAt id).type.expected?, typed hint := by
        intro hint isHint
        obtain ⟨id, _, isHint⟩ := Option.bind_eq_some_iff.mp isHint
        exact expected?_of_resolveIn (slots id current isClass) hint isHint
      refine (typed_infer kept isClass ofHint init hinting).bindSilent
        fun ⟨init, type⟩ ⟨inside, known⟩ => kept.typed_get.bind fun state _ => ?_
      have rest : Consumes ready [] (fun result => Note.AllTyped typed (Feature.attribute result).notes)
          (pure ⟨name, written, some init⟩ : Inference AttributeDecl) :=
        .pure (by rwa [Feature.notes, Expr.notesOption])
      dsimp only
      split
      · exact (kept.typed_learn (.value _ _) known).bind fun _ _ => rest
      · exact rest

section

variable (locals : ∀ rest state scope, ready rest state → ∀ id ∈ state.tree.locals scope, isLocal id)
include locals

theorem typed_inferMethod (concrete : current.isConcrete = true) (scope : ScopeId) (decl : MethodDecl)
    (hinting : Note.Hinting typed (Feature.method decl).notes) :
    Consumes ready (Nest.marksAll decl.body.nests)
      (fun result => Note.AllTyped typed (Feature.method result).notes)
      (inferMethod current scope decl) := by
  unfold inferMethod
  have seen : Consumes ready [] (fun state : InferenceState => state.hierarchy.Gives typed ∧
      ∀ id ∈ state.tree.locals scope, isLocal id) MonadState.get :=
    .get fun rest state isReady => ⟨kept.gives rest state isReady, locals rest state scope isReady⟩
  refine seen.bind fun state ⟨gives, ofScope⟩ => ?_
  have areLocal : ∀ id ∈ (state.tree.locals scope).drop 1, isLocal id :=
    fun id member => ofScope id (List.mem_of_mem_drop member)
  dsimp only
  split
  · rename_i known isKnown
    have found := Hierarchy.method?_self (Option.filter_eq_some_iff.mp isKnown).1
    have ofHint := expected?_of_typed fun _ => gives.result _ _ _ _ current concrete found isClass
    exact (kept.typed_mergeParams current decl.name.name 0 _ areLocal).bind fun _ _ =>
      (typed_infer kept isClass ofHint decl.body hinting).bindSilent fun ⟨body, type⟩ ⟨inside, ofBody⟩ =>
      (kept.typed_mergeParams current decl.name.name 0 _ areLocal).bind fun _ _ =>
      (kept.typed_learn (.result current decl.name.name type) ofBody).bind fun _ _ => .pure inside
  · have ofHint := typed_bindingType gives isClass (some decl.result)
    exact (typed_infer kept isClass ofHint decl.body hinting).bindSilent
      fun ⟨body, type⟩ ⟨inside, _⟩ => .pure inside

theorem typed_inferFeature (concrete : current.isConcrete = true) (scope : ScopeId) (feature : Feature)
    (hinting : Note.Hinting typed feature.notes) :
    Consumes ready (Nest.marks (.scope feature.nests)) (fun result => Note.AllTyped typed result.notes)
      (inferFeature current scope feature) := by
  unfold inferFeature
  rw [Nest.marks, ← List.singleton_append]
  refine kept.typed_openScope.bind fun inner _ => ?_
  rcases feature with decl | decl
  · exact (kept.typed_inferAttribute isClass scope decl hinting).bind fun decl inside =>
      kept.typed_closeScope.bindSilent fun _ _ => .pure inside
  · exact (kept.typed_inferMethod isClass locals concrete inner decl hinting).bind fun decl inside =>
      kept.typed_closeScope.bindSilent fun _ _ => .pure inside

theorem typed_inferFeatures (concrete : current.isConcrete = true) (scope : ScopeId)
    (features : List Feature) (hinting : Note.Hinting typed (features.flatMap Feature.notes)) :
    Consumes ready (Nest.marksAll (features.map fun feature => .scope feature.nests))
      (fun result => Note.AllTyped typed (result.flatMap Feature.notes))
      (inferFeatures current scope features) := by
  induction features with
  | nil => exact .pure .nil
  | cons feature features ih =>
      rw [List.flatMap_cons] at hinting
      rw [inferFeatures, List.map_cons, Nest.marksAll]
      exact (kept.typed_inferFeature isClass locals concrete scope feature hinting.split.1).bind
        fun feature first => (ih hinting.split.2).bindSilent fun features later => .pure
          (by rw [List.flatMap_cons]; exact first.append later)

end

end

end Invariant

end Inference

end CoolLang
