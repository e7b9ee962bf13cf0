import CoolLang.Inference.Rounds
import CoolLang.Proofs.Typing.Relocation

/-!
Inference at other positions. What the variables and the signatures learn has nothing to do with positions, so a
walk learns what it learned (`Inference.walk_relocate`); but whether it has learned anything is told by comparing
signatures, and these stay different only if positions stay apart.
-/

namespace CoolLang

variable {move : Position → Position}

theorem Attribute.relocate_injective (apart : Function.Injective move) :
    Function.Injective (Attribute.relocate move) := by
  rintro ⟨name, type, position⟩ ⟨name', type', position'⟩ same
  obtain ⟨rfl, rfl, isMoved⟩ := Attribute.mk.inj same
  exact congrArg (Attribute.mk name type) (apart isMoved)

theorem Method.relocate_injective (apart : Function.Injective move) : Function.Injective (Method.relocate move) := by
  rintro ⟨name, params, result, position⟩ ⟨name', params', result', position'⟩ same
  obtain ⟨rfl, rfl, rfl, isMoved⟩ := Method.mk.inj same
  exact congrArg (Method.mk name params result) (apart isMoved)

theorem Expr.type?_relocate (expr : Expr) : (expr.relocate move).type? = expr.type? := by
  cases expr <;> rfl

def InferenceState.relocate (move : Position → Position) (state : InferenceState) : InferenceState :=
  { state with hierarchy := state.hierarchy.relocate move }

theorem Hierarchy.settleOpen_relocate (hierarchy : Hierarchy) :
    (hierarchy.relocate move).settleOpen = hierarchy.settleOpen.relocate move := by
  have known : (hierarchy.relocate move).concreteIds = hierarchy.concreteIds := by
    rw [concreteIds, concreteIds, ids, ids, (hierarchy.alike_relocate move).size]
  have same (start : Hierarchy) (type : TypeId) :
      (start.relocate move).update type (fun info => { info with
        attributes := info.attributes.map Attribute.settleOpen
        methods := info.methods.map Method.settleOpen }) =
      (start.update type fun info => { info with
        attributes := info.attributes.map Attribute.settleOpen
        methods := info.methods.map Method.settleOpen }).relocate move := by
    refine update_relocate fun info => ?_
    have attributes : (info.attributes.map (Attribute.relocate move)).map Attribute.settleOpen =
        (info.attributes.map Attribute.settleOpen).map (Attribute.relocate move) := by
      rw [List.map_map, List.map_map]
      refine List.map_congr_left fun attr _ => ?_
      exact (apply_ite (Attribute.relocate move) (attr.type = .autoType) { attr with type := .object } attr).symm
    have methods : (info.methods.map (Method.relocate move)).map Method.settleOpen =
        (info.methods.map Method.settleOpen).map (Method.relocate move) := by
      rw [List.map_map, List.map_map]
      rfl
    unfold TypeInfo.relocate
    rw [attributes, methods]
  unfold settleOpen
  rw [known]
  generalize hierarchy.concreteIds = types
  clear known
  induction types generalizing hierarchy with
  | nil => rfl
  | cons type types ih => rw [List.foldl_cons, List.foldl_cons, same, ih]

namespace Inference

/-! ### Steps -/

theorem advance_relocate {change change' : InferenceState → InferenceState}
    (same : ∀ state, change' (state.relocate move) = (change state).relocate move) :
    Commutes (InferenceState.relocate move) id (advance change) (advance change') := by
  refine Commutes.modify fun state => ?_
  rw [show (state.relocate move).drift = state.drift from rfl]
  split
  · rfl
  · exact same state

theorem moveCursor_relocate (step : ScopeTree → Cursor → Except ScopeDrift Cursor) :
    Commutes (InferenceState.relocate move) id (moveCursor step) (moveCursor step) := by
  refine advance_relocate fun state => ?_
  dsimp only [InferenceState.relocate]
  cases step state.tree state.cursor <;> rfl

theorem openScope_relocate : Commutes (InferenceState.relocate move) id openScope openScope :=
  (moveCursor_relocate Cursor.enter).bind fun _ => Commutes.get.bind fun _ => .pure rfl

theorem closeScope_relocate : Commutes (InferenceState.relocate move) id closeScope closeScope :=
  moveCursor_relocate Cursor.leave

theorem beginWalk_relocate : Commutes (InferenceState.relocate move) id beginWalk beginWalk :=
  advance_relocate fun _ => rfl

theorem endWalk_relocate : Commutes (InferenceState.relocate move) id endWalk endWalk := by
  refine advance_relocate fun state => ?_
  dsimp only [InferenceState.relocate]
  cases state.cursor.finish state.tree <;> rfl

theorem lookUp_relocate (name : String) : Commutes (InferenceState.relocate move) id (lookUp name) (lookUp name) :=
  Commutes.get.bind fun _ => .pure rfl

theorem typeOf_relocate (slot : VariableId) :
    Commutes (InferenceState.relocate move) id (typeOf slot) (typeOf slot) :=
  Commutes.get.bind fun _ => .pure rfl

theorem noted_relocate (note : Note) (type : TypeId) :
    Commutes (InferenceState.relocate move) (Note.relocate move) (noted note type)
      (noted (note.relocate move) type) := by
  refine Commutes.get.bind fun state => .pure ?_
  rw [show (state.relocate move).drift = state.drift from rfl]
  split <;> rfl

theorem updateVariable_relocate (slot : VariableId) {learn : Hierarchy → Variable → Variable}
    (same : ∀ hierarchy : Hierarchy, learn (hierarchy.relocate move) = learn hierarchy) :
    Commutes (InferenceState.relocate move) id (updateVariable slot learn) (updateVariable slot learn) := by
  refine advance_relocate fun state => ?_
  dsimp only [InferenceState.relocate]
  rw [same]
  split <;> rfl

theorem observeHint_relocate (slot : VariableId) (type : TypeId) :
    Commutes (InferenceState.relocate move) id (observeHint slot type) (observeHint slot type) :=
  updateVariable_relocate slot fun _ => rfl

theorem observeValue_relocate (slot : VariableId) (type : TypeId) :
    Commutes (InferenceState.relocate move) id (observeValue slot type) (observeValue slot type) :=
  updateVariable_relocate slot fun hierarchy => by rw [(hierarchy.alike_relocate move).union]

section

variable (apart : Function.Injective move)
include apart

theorem updateMethod_relocate (owner : TypeId) (name : String) {learn : Hierarchy → Method → Method}
    (same : ∀ hierarchy method,
      learn (Hierarchy.relocate move hierarchy) (method.relocate move) = (learn hierarchy method).relocate move) :
    Commutes (InferenceState.relocate move) id (updateMethod owner name learn) (updateMethod owner name learn) := by
  refine advance_relocate fun state => ?_
  dsimp only [InferenceState.relocate]
  rw [Hierarchy.info_relocate, TypeInfo.method?_relocate]
  cases (state.hierarchy.info owner).method? name with
  | none => rfl
  | some before =>
      dsimp only [Option.map_some]
      rw [same]
      have isSame := (Method.relocate_injective apart).eq_iff (a := learn state.hierarchy before) (b := before)
      simp only [isSame]
      split
      · rfl
      · refine congrArg (InferenceState.mk · state.tree state.cursor true state.drift) ?_
        exact Hierarchy.update_relocate fun info => TypeInfo.updateMethod_relocate fun _ => rfl

theorem updateParam_relocate (owner : TypeId) (name : String) (place : Nat)
    {learn : Hierarchy → Variable → Variable}
    (same : ∀ hierarchy : Hierarchy, learn (hierarchy.relocate move) = learn hierarchy) :
    Commutes (InferenceState.relocate move) id (updateParam owner name place learn)
      (updateParam owner name place learn) :=
  updateMethod_relocate apart owner name fun hierarchy method => by rw [same]; rfl

theorem observeResult_relocate (owner : TypeId) (name : String) (type : TypeId) :
    Commutes (InferenceState.relocate move) id (observeResult owner name type) (observeResult owner name type) :=
  updateMethod_relocate apart owner name fun hierarchy method => by
    rw [(hierarchy.alike_relocate move).union]
    rfl

theorem mergeParam_relocate (owner : TypeId) (name : String) (place : Nat) (slot : VariableId) :
    Commutes (InferenceState.relocate move) id (mergeParam owner name place slot)
      (mergeParam owner name place slot) := by
  refine Commutes.get.bind fun state => ?_
  have known : (((state.relocate move).hierarchy.info owner).method? name).bind (fun method => method.params[place]?) =
      ((state.hierarchy.info owner).method? name).bind fun method => method.params[place]? := by
    rw [InferenceState.relocate, Hierarchy.info_relocate, TypeInfo.method?_relocate]
    cases (state.hierarchy.info owner).method? name <;> rfl
  dsimp only
  rw [known]
  cases ((state.hierarchy.info owner).method? name).bind fun method => method.params[place]? with
  | none => exact .pure rfl
  | some known =>
      refine (updateVariable_relocate slot fun hierarchy => ?_).bind fun _ => Commutes.get.bind fun state =>
        updateParam_relocate apart owner name place fun hierarchy => ?_
      · rw [(hierarchy.alike_relocate move).union]
      · rw [(hierarchy.alike_relocate move).union]

theorem mergeParams_relocate (owner : TypeId) (name : String) (place : Nat) (ids : List VariableId) :
    Commutes (InferenceState.relocate move) id (mergeParams owner name place ids)
      (mergeParams owner name place ids) := by
  induction ids generalizing place with
  | nil => exact .pure rfl
  | cons id ids ih => exact (mergeParam_relocate apart owner name place id).bind fun _ => ih (place + 1)

omit apart in
theorem withInferredTypes_relocate (tree : ScopeTree) (attributes : List Attribute) (ids : List VariableId) :
    withInferredTypes tree (attributes.map (Attribute.relocate move)) ids =
      (withInferredTypes tree attributes ids).map (Attribute.relocate move) := by
  induction attributes generalizing ids with
  | nil => cases ids <;> rfl
  | cons attr attributes ih =>
      cases ids with
      | nil => rfl
      | cons id ids =>
          rw [List.map_cons, withInferredTypes, withInferredTypes, ih]
          split <;> rfl

theorem recordAttributes_relocate (owner : TypeId) (scope : ScopeId) :
    Commutes (InferenceState.relocate move) id (recordAttributes owner scope) (recordAttributes owner scope) := by
  refine advance_relocate fun state => ?_
  dsimp only [InferenceState.relocate]
  rw [Hierarchy.info_relocate, TypeInfo.relocate]
  dsimp only
  rw [withInferredTypes_relocate]
  simp only [(List.map_injective_iff.mpr (Attribute.relocate_injective apart)).eq_iff]
  split
  · rfl
  · refine congrArg (InferenceState.mk · state.tree state.cursor true state.drift) ?_
    exact Hierarchy.update_relocate fun _ => rfl

end

/-! ### What a hierarchy tells -/

section

variable (move) (hierarchy : Hierarchy) (current : TypeId)

theorem castType_relocate (written : Ident) :
    castType (hierarchy.relocate move) (written.relocate move) = castType hierarchy written := by
  unfold castType
  rw [(hierarchy.alike_relocate move).find?]
  rfl

theorem callee?_relocate (type : TypeId) (method : Ident) (args : Nat) :
    callee? (hierarchy.relocate move) type (method.relocate move) args =
      (callee? hierarchy type method args).map (Prod.map id (Method.relocate move)) := by
  unfold callee?
  split
  · rw [Hierarchy.method?_relocate]
    exact Option.filter_map ..
  · rfl

theorem bindingType_relocate (written : Option Ident) :
    bindingType (hierarchy.relocate move) current (written.map fun written => written.relocate move) =
      bindingType hierarchy current written := by
  cases written with
  | none => rfl
  | some written =>
      rw [Option.map_some, bindingType, bindingType, (hierarchy.alike_relocate move).find?]
      rfl

theorem newType_relocate (written : Ident) :
    newType (hierarchy.relocate move) current (written.relocate move) = newType hierarchy current written := by
  unfold newType
  rw [(hierarchy.alike_relocate move).find?]
  rfl

theorem paramAt_relocate (callee : Option (TypeId × Method)) (place : Nat) :
    paramAt (callee.map (Prod.map id (Method.relocate move))) place = paramAt callee place := by
  cases callee <;> rfl

theorem dispatchResult_relocate (callee : Option (TypeId × Method)) (receiver type : TypeId) :
    dispatchResult (callee.map (Prod.map id (Method.relocate move))) receiver type =
      dispatchResult callee receiver type := by
  cases callee <;> rfl

end

theorem inferName_relocate (current : TypeId) (hint : Option TypeId) (name : String) :
    Commutes (InferenceState.relocate move) id (inferName current hint name) (inferName current hint name) := by
  refine (lookUp_relocate name).bind fun found => ?_
  cases found with
  | none => exact .pure rfl
  | some id =>
      cases hint with
      | none => exact (typeOf_relocate id).bind fun _ => .pure rfl
      | some hint => exact (observeHint_relocate id hint).bind fun _ => (typeOf_relocate id).bind fun _ => .pure rfl

theorem targetHint_relocate (current : TypeId) (slot : Option VariableId) :
    Commutes (InferenceState.relocate move) id (targetHint current slot) (targetHint current slot) := by
  cases slot with
  | none => exact .pure rfl
  | some slot => exact (typeOf_relocate slot).bind fun _ => .pure rfl

theorem observeTarget_relocate (target : Ident) (slot : Option VariableId) (type : TypeId) :
    Commutes (InferenceState.relocate move) id (observeTarget target slot type)
      (observeTarget (target.relocate move) slot type) := by
  cases slot with
  | none => exact .pure rfl
  | some slot =>
      rw [show observeTarget (target.relocate move) (some slot) type = observeTarget target (some slot) type from rfl]
      unfold observeTarget
      dsimp only
      split
      · exact .pure rfl
      · exact observeValue_relocate slot type

theorem observeArgument_relocate (apart : Function.Injective move) (callee : Option (TypeId × Method)) (place : Nat)
    (type : TypeId) : Commutes (InferenceState.relocate move) id (observeArgument callee place type)
      (observeArgument (callee.map (Prod.map id (Method.relocate move))) place type) := by
  cases callee with
  | none => exact .pure rfl
  | some callee =>
      unfold observeArgument
      rw [paramAt_relocate]
      dsimp only [Option.map_some, Prod.map_apply]
      split
      · refine updateParam_relocate apart callee.1 callee.2.name place fun hierarchy => ?_
        rw [(hierarchy.alike_relocate move).union]
      · exact .pure rfl

/-! ### Expressions -/

mutual

theorem infer_relocate (apart : Function.Injective move) (current : TypeId) (hint : Option TypeId) : (expr : Expr) →
    Commutes (InferenceState.relocate move) (Prod.map (Expr.relocate move) id) (infer current hint expr)
      (infer current hint (expr.relocate move))
  | .integer note value | .string note value | .boolean note value => by
      rw [Expr.relocate, infer, infer]
      exact (noted_relocate note _).bind fun _ => .pure rfl
  | .identifier note name => by
      rw [Expr.relocate, infer, infer]
      exact (inferName_relocate current hint name).bind fun type => (noted_relocate note type).bind fun _ => .pure rfl
  | .assign note target value => by
      rw [Expr.relocate, infer, infer]
      exact (lookUp_relocate target.name).bind fun id => (targetHint_relocate current id).bind fun expected =>
        (infer_relocate apart current expected value).bind fun ⟨value, type⟩ =>
        (observeTarget_relocate target id type).bind fun _ => (noted_relocate note type).bind fun _ => .pure rfl
  | .dispatch note receiver cast method args => by
      rw [Expr.relocate, infer, infer, Expr.length_relocateAll]
      refine Commutes.get.bind fun before => ?_
      have ofCast : (cast.map fun written => written.relocate move).map
          (castType (before.relocate move).hierarchy) = cast.map (castType before.hierarchy) := by
        rw [Option.map_map]
        exact Option.map_congr fun written _ => castType_relocate move before.hierarchy written
      rw [ofCast]
      refine (inferReceiver_relocate apart current _ receiver).bind fun ⟨receiver, receiverType⟩ =>
        Commutes.get.bind fun state => ?_
      rw [InferenceState.relocate, callee?_relocate]
      refine (inferArgs_relocate apart current _ 0 args).bind fun args => ?_
      rw [dispatchResult_relocate]
      exact (noted_relocate note _).bind fun _ => .pure rfl
  | .cond note test yes no => by
      rw [Expr.relocate, infer, infer]
      refine (infer_relocate apart current (some .bool) test).bind fun ⟨test, _⟩ =>
        (infer_relocate apart current hint yes).bind fun ⟨yes, yesType⟩ =>
        (infer_relocate apart current hint no).bind fun ⟨no, noType⟩ => Commutes.get.bind fun state => ?_
      dsimp only [InferenceState.relocate, id]
      rw [(state.hierarchy.alike_relocate move).union]
      exact (noted_relocate note _).bind fun _ => .pure rfl
  | .loop note test body => by
      rw [Expr.relocate, infer, infer]
      exact (infer_relocate apart current (some .bool) test).bind fun ⟨test, _⟩ =>
        (infer_relocate apart current none body).bind fun ⟨body, _⟩ =>
        (noted_relocate note .object).bind fun _ => .pure rfl
  | .block note body => by
      rw [Expr.relocate, infer, infer]
      exact openScope_relocate.bind fun _ =>
        (inferAll_relocate apart current hint .object body).bind fun ⟨body, type⟩ =>
        closeScope_relocate.bind fun _ => (noted_relocate note type).bind fun _ => .pure rfl
  | .letIn note bindings body => by
      rw [Expr.relocate, infer, infer]
      exact (inferBindings_relocate apart current (infer_relocate apart current hint body) bindings).bind
        fun ⟨bindings, body, type⟩ => (noted_relocate note type).bind fun _ => .pure rfl
  | .caseOf note scrutinee branches => by
      rw [Expr.relocate, infer, infer]
      exact (infer_relocate apart current none scrutinee).bind fun ⟨scrutinee, _⟩ =>
        (inferBranches_relocate apart current hint none branches).bind fun ⟨branches, type⟩ =>
        (noted_relocate note _).bind fun _ => .pure rfl
  | .new note written => by
      rw [Expr.relocate, infer, infer]
      refine Commutes.get.bind fun state => ?_
      dsimp only [InferenceState.relocate]
      rw [newType_relocate]
      exact (noted_relocate note _).bind fun _ => .pure rfl
  | .isVoid note operand | .not note operand | .complement note operand => by
      rw [Expr.relocate, infer, infer]
      exact (infer_relocate apart current _ operand).bind fun ⟨operand, _⟩ =>
        (noted_relocate note _).bind fun _ => .pure rfl
  | .binary note operator left right => by
      -- the operands of an equality expect each other's type
      have operands (first : Option TypeId) (second : TypeId → Option TypeId) (type : TypeId) :
          Commutes (InferenceState.relocate move) (Prod.map (Expr.relocate move) id)
            (do
              let (left, leftType) ← infer current first left
              let (right, _) ← infer current (second leftType) right
              return (Expr.binary (← noted note type) operator left right, type))
            (do
              let (left, leftType) ← infer current first (left.relocate move)
              let (right, _) ← infer current (second leftType) (right.relocate move)
              return (Expr.binary (← noted (note.relocate move) type) operator left right, type)) :=
        (infer_relocate apart current first left).bind fun ⟨left, leftType⟩ =>
          (infer_relocate apart current (second leftType) right).bind fun ⟨right, _⟩ =>
          (noted_relocate note type).bind fun _ => .pure rfl
      rw [Expr.relocate]
      by_cases equality : operator = .equal
      · subst equality
        rw [infer, infer, Expr.type?_relocate]
        exact operands _ TypeId.expected? .bool
      · rw [infer, infer]
        · exact operands (some .int) (fun _ => some .int) operator.resultType
        · exact equality
        · exact equality

theorem inferReceiver_relocate (apart : Function.Injective move) (current : TypeId) (hint : Option TypeId) :
    (receiver : Option Expr) →
    Commutes (InferenceState.relocate move) (Prod.map (Expr.relocateOption move) id)
      (inferReceiver current hint receiver) (inferReceiver current hint (Expr.relocateOption move receiver))
  | none => .pure rfl
  | some receiver => (infer_relocate apart current hint receiver).bind fun ⟨_, _⟩ => .pure rfl

theorem inferArgs_relocate (apart : Function.Injective move) (current : TypeId)
    (callee : Option (TypeId × Method)) (place : Nat) : (args : List Expr) →
    Commutes (InferenceState.relocate move) (Expr.relocateAll move) (inferArgs current callee place args)
      (inferArgs current (callee.map (Prod.map id (Method.relocate move))) place (Expr.relocateAll move args))
  | [] => .pure rfl
  | arg :: args => by
      rw [Expr.relocateAll, inferArgs, inferArgs, paramAt_relocate]
      exact (infer_relocate apart current _ arg).bind fun ⟨arg, type⟩ =>
        (observeArgument_relocate apart callee place type).bind fun _ =>
        (inferArgs_relocate apart current callee (place + 1) args).bind fun _ => .pure rfl

theorem inferAll_relocate (apart : Function.Injective move) (current : TypeId) (hint : Option TypeId)
    (last : TypeId) : (exprs : List Expr) →
    Commutes (InferenceState.relocate move) (Prod.map (Expr.relocateAll move) id) (inferAll current hint last exprs)
      (inferAll current hint last (Expr.relocateAll move exprs))
  | [] => .pure rfl
  | expr :: exprs => by
      have isLast : (Expr.relocateAll move exprs).isEmpty = exprs.isEmpty := by cases exprs <;> rfl
      rw [Expr.relocateAll, inferAll, inferAll, isLast]
      exact (infer_relocate apart current _ expr).bind fun ⟨expr, type⟩ =>
        (inferAll_relocate apart current hint type exprs).bind fun ⟨exprs, type⟩ => .pure rfl

theorem inferBindings_relocate (apart : Function.Injective move) (current : TypeId)
    {body body' : Inference (Expr × TypeId)}
    (same : Commutes (InferenceState.relocate move) (Prod.map (Expr.relocate move) id) body body') :
    (bindings : List (Binding Expr)) →
    Commutes (InferenceState.relocate move) (Prod.map (Expr.relocateBindings move) (Prod.map (Expr.relocate move) id))
      (inferBindings current bindings body) (inferBindings current (Expr.relocateBindings move bindings) body')
  | [] => by
      rw [Expr.relocateBindings, inferBindings, inferBindings]
      exact same.bind fun ⟨body, type⟩ => .pure rfl
  | ⟨name, written, init⟩ :: bindings => by
      rw [Expr.relocateBindings, inferBindings, inferBindings]
      refine Commutes.get.bind fun state => ?_
      dsimp only [InferenceState.relocate]
      rw [bindingType_relocate]
      refine (inferInit_relocate apart current _ init).bind fun init =>
        openScope_relocate.bind fun scope => Commutes.get.bind fun state => ?_
      have rest : Commutes (InferenceState.relocate move)
          (Prod.map (Expr.relocateBindings move) (Prod.map (Expr.relocate move) id))
          (do
            let (bindings, body, type) ← inferBindings current bindings body
            closeScope
            return (⟨name, written, init.map Prod.fst⟩ :: bindings, body, type))
          (do
            let (bindings, body, type) ← inferBindings current (Expr.relocateBindings move bindings) body'
            closeScope
            return (⟨name.relocate move, written.map fun written => written.relocate move,
              (init.map (Prod.map (Expr.relocate move) id)).map Prod.fst⟩ :: bindings, body, type)) :=
        (inferBindings_relocate apart current same bindings).bind fun ⟨bindings, body, type⟩ =>
          closeScope_relocate.bind fun _ => .pure (by cases init <;> rfl)
      dsimp only [id, InferenceState.relocate]
      cases (state.tree.locals scope).head? with
      | none => exact rest
      | some id =>
          cases init with
          | none => exact rest
          | some init => exact (observeValue_relocate id init.2).bind fun _ => rest

theorem inferInit_relocate (apart : Function.Injective move) (current : TypeId) (hint : Option TypeId) :
    (init : Option Expr) →
    Commutes (InferenceState.relocate move) (Option.map (Prod.map (Expr.relocate move) id))
      (inferInit current hint init) (inferInit current hint (Expr.relocateOption move init))
  | none => .pure rfl
  | some init => (infer_relocate apart current hint init).bind fun _ => .pure rfl

theorem inferBranches_relocate (apart : Function.Injective move) (current : TypeId) (hint type : Option TypeId) :
    (branches : List (Branch Expr)) →
    Commutes (InferenceState.relocate move) (Prod.map (Expr.relocateBranches move) id)
      (inferBranches current hint type branches)
      (inferBranches current hint type (Expr.relocateBranches move branches))
  | [] => .pure rfl
  | ⟨name, written, body⟩ :: branches => by
      rw [Expr.relocateBranches, inferBranches, inferBranches]
      refine openScope_relocate.bind fun _ => (infer_relocate apart current hint body).bind fun ⟨body, bodyType⟩ =>
        closeScope_relocate.bind fun _ => Commutes.get.bind fun state => ?_
      dsimp only [InferenceState.relocate, Prod.map_apply, id]
      simp only [(state.hierarchy.alike_relocate move).union]
      exact (inferBranches_relocate apart current hint _ branches).bind fun ⟨branches, type⟩ => .pure rfl

end

/-! ### Features and classes -/

section

variable (apart : Function.Injective move)
include apart

theorem inferAttribute_relocate (current : TypeId) (classScope : ScopeId) (decl : AttributeDecl) :
    Commutes (InferenceState.relocate move) (AttributeDecl.relocate move) (inferAttribute current classScope decl)
      (inferAttribute current classScope (decl.relocate move)) := by
  obtain ⟨name, written, init⟩ := decl
  cases init with
  | none => exact .pure rfl
  | some init =>
      refine Commutes.get.bind fun before => (infer_relocate apart current _ init).bind fun ⟨init, type⟩ =>
        Commutes.get.bind fun state => ?_
      have known : ((state.relocate move).hierarchy.info current).attributeAt? name.name (move name.position) =
          ((state.hierarchy.info current).attributeAt? name.name name.position).map (Attribute.relocate move) := by
        rw [InferenceState.relocate, Hierarchy.info_relocate, TypeInfo.attributeAt?_relocate apart]
      dsimp only [Ident.relocate, AttributeDecl.relocate]
      rw [known]
      dsimp only [InferenceState.relocate]
      cases before.tree.find? classScope name.name with
      | none => exact .pure rfl
      | some id =>
          cases (state.hierarchy.info current).attributeAt? name.name name.position with
          | none => exact .pure rfl
          | some attr => exact (observeValue_relocate id type).bind fun _ => .pure rfl

theorem inferMethod_relocate (current : TypeId) (scope : ScopeId) (decl : MethodDecl) :
    Commutes (InferenceState.relocate move) (MethodDecl.relocate move) (inferMethod current scope decl)
      (inferMethod current scope (decl.relocate move)) := by
  obtain ⟨name, params, result, body⟩ := decl
  refine Commutes.get.bind fun state => ?_
  have known : ((state.relocate move).hierarchy.info current).methodAt? name.name (move name.position) =
      ((state.hierarchy.info current).methodAt? name.name name.position).map (Method.relocate move) := by
    rw [InferenceState.relocate, Hierarchy.info_relocate, TypeInfo.methodAt?_relocate apart]
  dsimp only [Ident.relocate, MethodDecl.relocate]
  rw [known]
  dsimp only [InferenceState.relocate]
  cases (state.hierarchy.info current).methodAt? name.name name.position with
  | none =>
      dsimp only [Option.map_none]
      rw [(state.hierarchy.alike_relocate move).find?]
      exact (infer_relocate apart current _ body).bind fun ⟨body, _⟩ => .pure rfl
  | some method =>
      exact (mergeParams_relocate apart current name.name 0 _).bind fun _ =>
        (infer_relocate apart current _ body).bind fun ⟨body, type⟩ =>
        (mergeParams_relocate apart current name.name 0 _).bind fun _ =>
        (observeResult_relocate apart current name.name type).bind fun _ => .pure rfl

theorem inferFeature_relocate (current : TypeId) (classScope : ScopeId) (feature : Feature) :
    Commutes (InferenceState.relocate move) (Feature.relocate move) (inferFeature current classScope feature)
      (inferFeature current classScope (feature.relocate move)) := by
  refine openScope_relocate.bind fun scope => ?_
  rcases feature with decl | decl
  · exact (inferAttribute_relocate apart current classScope decl).bind fun decl =>
      (@Commutes.pure _ _ _ _ (Feature.relocate move) _ _ rfl).bind fun _ => closeScope_relocate.bind fun _ => .pure rfl
  · exact (inferMethod_relocate apart current scope decl).bind fun decl =>
      (@Commutes.pure _ _ _ _ (Feature.relocate move) _ _ rfl).bind fun _ => closeScope_relocate.bind fun _ => .pure rfl

theorem inferFeatures_relocate (current : TypeId) (classScope : ScopeId) (features : List Feature) :
    Commutes (InferenceState.relocate move) (List.map (Feature.relocate move))
      (inferFeatures current classScope features)
      (inferFeatures current classScope (features.map (Feature.relocate move))) := by
  induction features with
  | nil => exact .pure rfl
  | cons feature features ih =>
      exact (inferFeature_relocate apart current classScope feature).bind fun _ => ih.bind fun _ => .pure rfl

theorem inferClass_relocate (current : TypeId) (decl : ClassDecl) :
    Commutes (InferenceState.relocate move) (ClassDecl.relocate move) (inferClass current decl)
      (inferClass current (decl.relocate move)) :=
  openScope_relocate.bind fun scope => (inferFeatures_relocate apart current scope decl.features).bind fun _ =>
    (recordAttributes_relocate apart current scope).bind fun _ => closeScope_relocate.bind fun _ => .pure rfl

theorem inferClasses_relocate (decls : List ClassDecl) (types : ClassTypes) :
    Commutes (InferenceState.relocate move) (List.map (ClassDecl.relocate move)) (inferClasses decls types)
      (inferClasses (decls.map (ClassDecl.relocate move)) types) := by
  induction decls generalizing types with
  | nil => exact .pure rfl
  | cons decl decls ih =>
      rcases types with _ | ⟨_ | type, types⟩
      · exact .pure rfl
      · exact (ih types).bind fun _ => .pure rfl
      · exact (inferClass_relocate apart type decl).bind fun _ => (ih types).bind fun _ => .pure rfl

/-- A walk over a program that has been moved learns what it learns of the program. -/
theorem walk_relocate (types : ClassTypes) (program : Program) :
    Commutes (InferenceState.relocate move) (Program.relocate move) (walk types program)
      (walk types (program.relocate move)) :=
  beginWalk_relocate.bind fun _ => (inferClasses_relocate apart program.classes types).bind fun _ =>
    endWalk_relocate.bind fun _ => .pure rfl

/-! ### Phases -/

omit apart in
theorem settleOpen_relocate : Commutes (InferenceState.relocate move) id settleOpen settleOpen :=
  advance_relocate fun state =>
    congrArg (InferenceState.mk · _ state.cursor state.changed state.drift) state.hierarchy.settleOpen_relocate

theorem walkUntilStable_relocate (types : ClassTypes) (more : Nat) (program : Program) :
    Commutes (InferenceState.relocate move) (Prod.map (Program.relocate move) id) (walkUntilStable types more program)
      (walkUntilStable types more (program.relocate move)) := by
  induction more generalizing program with
  | zero => exact (walk_relocate apart types program).bind fun _ => .pure rfl
  | succ more ih =>
      refine (walk_relocate apart types program).bind fun program => Commutes.get.bind fun state => ?_
      dsimp only [InferenceState.relocate]
      split
      · exact (ih program).bind fun ⟨program, walks⟩ => .pure rfl
      · exact .pure rfl

theorem bothPhases_relocate (types : ClassTypes) (limit : Nat) (program : Program) :
    Commutes (InferenceState.relocate move) (Prod.map (Program.relocate move) id) (bothPhases types limit program)
      (bothPhases types limit (program.relocate move)) :=
  (walkUntilStable_relocate apart types (limit - 1) program).bind fun ⟨program, _⟩ =>
    settleOpen_relocate.bind fun _ =>
    (walkUntilStable_relocate apart types (limit - 1) program).bind fun ⟨_, _⟩ => .pure rfl

end

end Inference

def Inferred.relocate (move : Position → Position) (inferred : Inferred) : Inferred :=
  ⟨inferred.program.relocate move, inferred.hierarchy.relocate move, inferred.tree, inferred.walks⟩

theorem Program.infer_relocate (apart : Function.Injective move) (program : Program) (types : ClassTypes)
    (hierarchy : Hierarchy) (tree : ScopeTree) (limit : Nat) :
    (program.relocate move).infer types (hierarchy.relocate move) tree limit =
      (program.infer types hierarchy tree limit).relocate move := by
  have same := Inference.bothPhases_relocate apart types limit program ⟨hierarchy, tree, .initial, false, none⟩
  rw [InferenceState.relocate] at same
  unfold infer
  dsimp only [StateT.run] at same ⊢
  rw [same]
  rfl

end CoolLang
