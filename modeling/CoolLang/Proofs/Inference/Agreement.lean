import CoolLang.Proofs.Inference.Progress
import CoolLang.Proofs.Inference.Visits
import CoolLang.Proofs.Typing.Survey

/-!
How inference and a survey agree. A step of a walk has observed a value that flows into an open declaration; if
it has done so to no effect, then the value conforms to the type of the declaration
(`Variable.conforms_of_observed`). What agrees with a survey in that sense composes (`Inference.Agrees.bind`).
-/

namespace CoolLang

/-- Whether the type of a declaration is left to inference. -/
def Target.IsInferred : Target → Prop
  | .variable info | .param info => info.auto = true
  | .attribute decl => decl.type.name = "AUTO_TYPE"
  | .result decl => decl.result.name = "AUTO_TYPE"
  | .operand => False

/-- Whether a finding is no complaint about an inferred declaration. -/
def Finding.Blameless (hierarchy : Hierarchy) : Finding → Prop
  | .flow target type expected _ => target.IsInferred → hierarchy.conforms type expected = true
  | .fault _ => True

namespace Survey

variable {α β : Type} {hierarchy : Hierarchy}

/-- Whether nothing that is found is a complaint about an inferred declaration. -/
def Blameless (hierarchy : Hierarchy) (survey : Survey α) : Prop :=
  ∀ finding ∈ survey.findings, finding.Blameless hierarchy

theorem Blameless.pure (value : α) : (Pure.pure value : Survey α).Blameless hierarchy :=
  nofun

theorem Blameless.fault (position : Position) (problem : Problem) :
    (Survey.fault position problem).Blameless hierarchy :=
  List.forall_mem_singleton.mpr trivial

theorem Blameless.flow {target : Target} {type expected : TypeId} (position : Position)
    (conforms : target.IsInferred → hierarchy.conforms type expected = true) :
    (Survey.flow target type expected position).Blameless hierarchy :=
  List.forall_mem_singleton.mpr conforms

theorem Blameless.bind {survey : Survey α} {next : α → Survey β} (one : survey.Blameless hierarchy)
    (two : (next survey.value).Blameless hierarchy) : (survey >>= next).Blameless hierarchy :=
  List.forall_mem_append.mpr ⟨one, two⟩

end Survey

/-! ### What an observation to no effect says -/

theorem TypeId.resolveIn_self (type : TypeId) : type.resolveIn type = type := by
  unfold TypeId.resolveIn
  split
  · rfl
  · rfl

/-- Only classes, and types that mean different classes, are compared with others. -/
theorem TypeId.Absolute.conforms_of_not_concrete {hierarchy : Hierarchy} {size : Nat} {type : TypeId}
    (absolute : type.Absolute size) (unknown : type.isConcrete = false) (expected : TypeId) :
    hierarchy.conforms type expected = true := by
  have unchecked : type.isChecked = false := by
    rw [TypeId.isConcrete, bne_iff_ne.mpr absolute.notSelf, Bool.true_and, Bool.and_comm] at unknown
    exact unknown
  rw [Hierarchy.conforms, unchecked]
  rfl

namespace Variable

/-- What has been observed of an open declaration is known of it. -/
theorem inferred_of_observed {info : Variable} {join : TypeId → TypeId → TypeId} {type : TypeId}
    (isAuto : info.auto = true) (concrete : type.isConcrete = true) (observed : info.observeValue join type = info) :
    info.inferred = true ∧ join info.type type = info.type := by
  rw [observeValue, isAuto, concrete] at observed
  simp only [Bool.not_true, Bool.or_self, Bool.false_eq_true, if_false] at observed
  have inferred : info.inferred = true := by
    by_contra unresolved
    rw [if_neg unresolved] at observed
    exact unresolved (congrArg Variable.inferred observed).symm
  rw [if_pos inferred] at observed
  exact ⟨inferred, congrArg Variable.type observed⟩

/-- A value has been observed to no effect, so it conforms to the type of the open declaration. -/
theorem conforms_of_observed {hierarchy : Hierarchy} {info : Variable} {type : TypeId}
    (rooted : hierarchy.Rooted) (placed : info.Placed hierarchy) (isAuto : info.auto = true)
    (absolute : type.Absolute hierarchy.types.size)
    (observed : info.observeValue hierarchy.union type = info) (current : TypeId) :
    hierarchy.conforms type (info.type.resolveIn current) = true := by
  cases concrete : type.isConcrete with
  | false => exact absolute.conforms_of_not_concrete concrete _
  | true =>
      have isClass : hierarchy.IsClass type := ⟨concrete, absolute.known⟩
      obtain ⟨inferred, same⟩ := inferred_of_observed isAuto concrete observed
      have isClass' := placed.isClass inferred
      have above := (rooted.union_mem isClass' isClass).2
      rw [same] at above
      rw [TypeId.resolveIn, if_neg (TypeId.ne_selfType_of_isConcrete isClass'.concrete)]
      exact (isClass.conforms_iff isClass').mpr above

end Variable

namespace Inference

variable {α β γ δ : Type} {state after : InferenceState}

theorem updateVariable_quiet {id : VariableId} {learn : Hierarchy → Variable → Variable}
    (noDrift : state.drift = none) (quiet : Quiet (updateVariable id learn state).2) :
    learn state.hierarchy (state.tree.variableAt id) = state.tree.variableAt id := by
  rw [updateVariable, advance_of_none noDrift] at quiet
  dsimp only at quiet
  split at quiet
  · assumption
  · cases quiet.1

theorem updateMethod_quiet {owner : TypeId} {name : String} {learn : Hierarchy → Method → Method}
    (noDrift : state.drift = none) (quiet : Quiet (updateMethod owner name learn state).2) {method : Method}
    (known : (state.hierarchy.info owner).method? name = some method) : learn state.hierarchy method = method := by
  rw [updateMethod, advance_of_none noDrift] at quiet
  simp only [known] at quiet
  split at quiet
  · assumption
  · cases quiet.1

/-! ### Sites -/

/-- What holds of a hierarchy, and of the variables of a tree, where inference has ended. -/
structure Rests (hierarchy : Hierarchy) (current : TypeId) (tree : Option ScopeTree) : Prop where
  rooted : hierarchy.Rooted
  gives : hierarchy.Gives (TypeId.Absolute hierarchy.types.size)
  isClass : hierarchy.IsClass current
  names : hierarchy.find? "AUTO_TYPE" = some .autoType
  methods : ∀ owner, ∀ method ∈ (hierarchy.info owner).methods, method.Placed hierarchy
  wellFormed : ∀ known ∈ tree, known.WellFormed
  slots : ∀ known ∈ tree, ∀ id, (known.variableAt id).Placed hierarchy

/-- A state in which a walk has come to a site, with scopes ahead that its tree has there. -/
structure Stands (site : Site) (place : Nat) (nests : List Nest) (state : InferenceState) : Prop where
  hierarchy : state.hierarchy = site.hierarchy
  tree : site.tree = some state.tree
  sees : state.tree.Sees site.scope site.env
  facing : Facing state.tree site.scope place nests state

/-- Wherever an action is given the same as a survey, and learns nothing, it comes to the same. -/
structure Agrees (given : Prop) (site : Site) (place : Nat) (nests : List Nest) (action : Inference α)
    (survey : Survey β) (same : α → β → Prop) : Prop where
  runs : ∀ state, Runs (Nest.marksAll nests) state (action state).2
  finds : given → ∀ state, Stands site place nests state → Quiet (action state).2 →
    same (action state).1 survey.value ∧ survey.Blameless site.hierarchy

/-- Two results with the same type, which means the same in every class. -/
def SameType (size : Nat) (one : α × TypeId) (two : β × TypeId) : Prop :=
  one.2 = two.2 ∧ one.2.Absolute size

variable {site : Site} {place : Nat} {front back nests : List Nest} {given : Prop}

namespace Facing

variable {tree : ScopeTree} {scope : ScopeId}

theorem first (facing : Facing tree scope place (front ++ back) state) :
    Facing tree scope place front state := by
  obtain ⟨nodes, noDrift, cursor, ids, behind, left, fits⟩ := facing
  obtain ⟨first, second, rfl, one, _⟩ := fits.split
  exact ⟨nodes, noDrift, cursor, first, second ++ behind, by rw [left, List.append_assoc], one⟩

theorem second (facing : Facing tree scope place (front ++ back) state)
    (runs : Runs (Nest.marksAll front) state after) :
    Facing tree scope (place + front.length) back after := by
  obtain ⟨nodes, noDrift, ⟨outer, entered, isCursor⟩, ids, behind, left, fits⟩ := facing
  obtain ⟨first, second, rfl, one, two⟩ := fits.split
  have moved : Cursor.moves tree ⟨⟨scope, place⟩, outer, entered⟩ (Nest.marksAll front) = .ok _ :=
    Nest.moves_marksAll front (second ++ behind) (by rw [left, List.append_assoc]) one
  obtain ⟨noDrift', isCursor', nodes'⟩ := runs.moves noDrift ((Cursor.moves_of_nodes nodes _ _).trans (isCursor ▸ moved))
  refine ⟨nodes'.trans nodes, noDrift', ⟨_, _, isCursor'⟩, second, behind, ?_, two⟩
  rw [← List.drop_drop, left, List.append_assoc, one.length_eq, List.drop_left]

end Facing

theorem Stands.first (stands : Stands site place (front ++ back) state) : Stands site place front state :=
  ⟨stands.hierarchy, stands.tree, stands.sees, stands.facing.first⟩

/-- Having learned nothing, a walk stands behind the scopes that it has gone through. -/
theorem Stands.second (stands : Stands site place (front ++ back) state)
    (runs : Runs (Nest.marksAll front) state after) (quiet : Quiet after) :
    Stands site (place + front.length) back after := by
  obtain ⟨_, hierarchy, tree⟩ := runs.quiet quiet
  exact ⟨hierarchy.trans stands.hierarchy, tree ▸ stands.tree, tree ▸ stands.sees, tree ▸ stands.facing.second runs⟩

namespace Agrees

variable {action : Inference α} {next : α → Inference β} {one : Survey γ} {two : γ → Survey δ}
  {survey : Survey δ} {same : α → γ → Prop} {same' : β → δ → Prop}

theorem bind (agrees : Agrees given site place front action one same)
    (agrees' : ∀ value told, Agrees (given ∧ same value told) site (place + front.length) back (next value)
      (two told) same') :
    Agrees given site place (front ++ back) (action >>= next) (one >>= two) same' := by
  refine ⟨fun state => ?_, fun isGiven state stands quiet => ?_⟩
  · rw [Nest.marksAll_append]
    exact (agrees.runs state).append ((agrees' (action state).1 one.value).runs (action state).2)
  · have later := (agrees' (action state).1 one.value).runs (action state).2
    have between := (later.quiet quiet).1
    obtain ⟨isSame, blameless⟩ := agrees.finds isGiven state stands.first between
    obtain ⟨isSame', blameless'⟩ := (agrees' (action state).1 one.value).finds ⟨isGiven, isSame⟩ (action state).2
      (stands.second (agrees.runs state) between) quiet
    exact ⟨isSame', blameless.bind blameless'⟩

/-- The second action opens no scope. -/
theorem bindSilent (agrees : Agrees given site place front action one same)
    (agrees' : ∀ value told, Agrees (given ∧ same value told) site (place + front.length) [] (next value)
      (two told) same') :
    Agrees given site place front (action >>= next) (one >>= two) same' := by
  have both := agrees.bind agrees'
  rwa [List.append_nil] at both

/-- An action that a survey knows nothing of. -/
theorem skip {same : α → Unit → Prop} (agrees : Agrees given site place [] action (Pure.pure ()) same)
    (agrees' : ∀ value, Agrees (given ∧ same value ()) site place nests (next value) survey same') :
    Agrees given site place nests (action >>= next) survey same' := by
  have later (value : α) (told : Unit) : Agrees (given ∧ same value told) site place nests (next value)
    ((fun _ => survey) told) same' := agrees' value
  exact agrees.bind later

/-- What a survey finds out by itself. -/
theorem tell {same : β → δ → Prop} {action : Inference β} (blameless : given → one.Blameless site.hierarchy)
    (agrees : Agrees given site place nests action (two one.value) same) :
    Agrees given site place nests action (one >>= two) same :=
  ⟨agrees.runs, fun isGiven state stands quiet =>
    have found := agrees.finds isGiven state stands quiet
    ⟨found.1, (blameless isGiven).bind found.2⟩⟩

theorem pure {value : α} {told : γ} (holds : given → same value told) :
    Agrees given site place [] (Pure.pure value) (Pure.pure told) same :=
  ⟨fun _ => .done, fun isGiven _ _ _ => ⟨holds isGiven, .pure told⟩⟩

/-- Reading what a walk has come to. -/
theorem get : Agrees given site place [] MonadState.get (Pure.pure ())
    fun (state : InferenceState) _ => Stands site place [] state :=
  ⟨fun _ => .done, fun _ _ stands _ => ⟨stands, .pure ()⟩⟩

end Agrees

/-! ### Steps -/

section

variable {type told : TypeId}

theorem agrees_noted (note : Note) (type : TypeId) :
    Agrees given site place [] (noted note type) (Pure.pure ()) fun _ _ => True :=
  ⟨fun state => (runs_noted note type state).1, fun _ _ _ _ => ⟨trivial, .pure ()⟩⟩

theorem Stands.current (stands : Stands site place nests state) : state.cursor.current = site.scope := by
  obtain ⟨outer, entered, isCursor⟩ := stands.facing.cursor
  rw [isCursor]
  rfl

/-- A name means the variable that a survey looks up. -/
theorem Stands.lookUp (stands : Stands site place nests state) (name : String) :
    (Inference.lookUp name state).1.map state.tree.variableAt = site.lookUp? name := by
  change (state.tree.find? state.cursor.current name).map state.tree.variableAt = _
  rw [stands.current]
  exact stands.sees name

theorem agrees_lookUp (name : String) : Agrees given site place [] (lookUp name) (Pure.pure ())
    fun id _ => ∀ tree ∈ site.tree, id.map tree.variableAt = site.lookUp? name := by
  refine ⟨fun state => (runs_lookUp name state).1, fun _ state stands _ => ⟨fun tree isTree => ?_, .pure ()⟩⟩
  obtain rfl := Option.some.inj (stands.tree.symm.trans isTree)
  exact stands.lookUp name

theorem agrees_targetHint (id : Option VariableId) :
    Agrees given site place [] (targetHint site.current id) (Pure.pure ()) fun _ _ => True :=
  ⟨fun state => (runs_targetHint id state).1, fun _ _ _ _ => ⟨trivial, .pure ()⟩⟩

variable (rests : Rests site.hierarchy site.current site.tree)
include rests

theorem Rests.slot {tree : ScopeTree} (isTree : site.tree = some tree) (id : VariableId) :
    ((tree.variableAt id).type.resolveIn site.current).Absolute site.hierarchy.types.size :=
  rests.isClass.absolute.resolveIn (rests.slots tree isTree id).known

theorem agrees_inferName (hint : Option TypeId) (name : String) (position : Position) :
    Agrees given site place [] (inferName site.current hint name) (site.typeOfName name position)
      fun type told => type = told ∧ type.Absolute site.hierarchy.types.size := by
  refine .skip (agrees_lookUp name) fun id => ⟨fun state => ?_, fun ⟨_, isFound⟩ state stands quiet => ?_⟩
  · cases id with
    | none => exact .done
    | some id =>
        cases hint with
        | none => exact .done
        | some hint => exact .learn (.hint id hint) .done
  · have isFound := isFound state.tree stands.tree
    unfold Site.typeOfName
    rw [← isFound]
    cases id with
    | none => exact ⟨⟨rfl, rests.gives.error⟩, .bind (.fault _ _) (.pure _)⟩
    | some id =>
        have known : SameType site.hierarchy.types.size ((), (state.tree.variableAt id).type.resolveIn site.current)
          ((), (state.tree.variableAt id).type.resolveIn site.current) := ⟨rfl, rests.slot stands.tree id⟩
        cases hint with
        | none => exact ⟨known, .pure _⟩
        | some hint =>
            have unhinted : (observeHint id hint state).2 = state :=
              (learn_learned (.hint id hint)).eq_of_quiet quiet
            refine ⟨?_, .pure _⟩
            change SameType _ ((), ((observeHint id hint state).2.tree.variableAt id).type.resolveIn _) ((), _)
            rw [unhinted]
            exact known

theorem agrees_observeTarget (target : Ident) (id : Option VariableId) {type told : TypeId} (position : Position)
    (isFound : given → ∀ tree ∈ site.tree, id.map tree.variableAt = site.lookUp? target.name)
    (same : given → type = told ∧ type.Absolute site.hierarchy.types.size) :
    Agrees given site place [] (observeTarget target id type) (site.surveyTarget target told position)
      fun _ _ => True := by
  refine ⟨fun state => (runs_observeTarget target id type state).1, fun isGiven state stands quiet => ⟨trivial, ?_⟩⟩
  obtain ⟨rfl, absolute⟩ := same isGiven
  unfold Site.surveyTarget
  split
  · exact .fault _ _
  · rename_i notSelf
    rw [← isFound isGiven state.tree stands.tree]
    cases id with
    | none => exact .fault _ _
    | some id =>
        refine .flow _ fun isAuto => ?_
        rw [observeTarget, if_neg notSelf] at quiet
        have observed := updateVariable_quiet stands.facing.noDrift quiet
        rw [stands.hierarchy] at observed
        exact Variable.conforms_of_observed rests.rooted (rests.slots state.tree stands.tree id) isAuto absolute
          observed _

omit rests in
/-- Where nothing has been learned, a step has let a parameter learn nothing. -/
theorem updateParam_quiet {owner : TypeId} {name : String} {place : Nat} {learn : Hierarchy → Variable → Variable}
    (noDrift : state.drift = none) (quiet : Quiet (updateParam owner name place learn state).2) {method : Method}
    (known : (state.hierarchy.info owner).method? name = some method) {param : Variable}
    (isParam : method.params[place]? = some param) : learn state.hierarchy param = param := by
  have same := congrArg (fun method => method.params[place]?) (updateMethod_quiet noDrift quiet known)
  dsimp only at same
  rw [List.getElem?_modify, isParam] at same
  simpa using same

theorem agrees_observeArgument (callee : Option (TypeId × Method)) (start : Nat) (params : List Variable)
    {type told : TypeId} (position : Position)
    (isKnown : given → ∀ owner method, callee = some (owner, method) →
      (site.hierarchy.info owner).method? method.name = some method)
    (isParam : given → paramAt callee start = params.head?)
    (same : given → type = told ∧ type.Absolute site.hierarchy.types.size) :
    Agrees given site place [] (observeArgument callee start type)
      (match params.head? with
        | some param => Survey.flow (.param param) told param.type position
        | none => pure ()) fun _ _ => True := by
  refine ⟨fun state => (runs_observeArgument callee start type state).1, fun isGiven state stands quiet =>
    ⟨trivial, ?_⟩⟩
  obtain ⟨rfl, absolute⟩ := same isGiven
  rw [← isParam isGiven]
  cases callee with
  | none => exact .pure ()
  | some callee =>
      obtain ⟨owner, method⟩ := callee
      have known := isKnown isGiven owner method rfl
      unfold observeArgument at quiet
      dsimp only at quiet
      cases isArgument : paramAt (some (owner, method)) start with
      | none => exact .pure ()
      | some param =>
          refine .flow _ fun isAuto => ?_
          rw [isArgument, Option.any_some, if_pos (show param.auto = true from isAuto)] at quiet
          have observed := updateParam_quiet stands.facing.noDrift quiet (stands.hierarchy ▸ known) isArgument
          rw [stands.hierarchy] at observed
          have placed := (rests.methods owner method (List.mem_of_find?_eq_some known)).params param
            (List.mem_of_getElem? isArgument)
          have conforms := Variable.conforms_of_observed rests.rooted placed isAuto absolute observed param.type
          rwa [TypeId.resolveIn_self] at conforms

omit rests in
/-- What is done in a scope, between entering and leaving it. -/
theorem Agrees.inside {α γ : Type} (action : ScopeId → Inference α) {survey : Survey γ} {same : α → γ → Prop}
    (written : List Variable) (wellFormed : ∀ tree ∈ site.tree, tree.WellFormed)
    (agrees : ∀ scope, Agrees (given ∧ scope = site.child place) (site.inside place written) 0 nests
      (action scope) survey same) :
    Agrees given site place [.scope nests]
      (openScope >>= fun scope => action scope >>= fun value => closeScope >>= fun _ => Pure.pure value)
      survey same := by
  have leaves (scope : ScopeId) (state : InferenceState) : Runs [.leave] (action scope state).2
      (closeScope (action scope state).2).2 := .move .done
  refine ⟨fun state => ?_, fun isGiven state stands quiet => ?_⟩
  · rw [Nest.marksAll_single]
    exact .move (((agrees _).runs _).append (leaves _ _))
  · obtain ⟨hierarchy, isTree, sees, nodes, noDrift, ⟨outer, entered, isCursor⟩, ids, behind, left, fits⟩ := stands
    obtain _ | ⟨child, ids⟩ := ids
    · exact fits.elim
    obtain ⟨index, fits, _⟩ := fits
    obtain ⟨isNext, _⟩ := next_of_drop left
    have opened := openScope_eq nodes noDrift isCursor isNext index
    have isChild : site.child place = child := by
      rw [Site.child, isTree, Option.elim_some]
      exact ScopeTree.child_of_getElem? isNext
    subst isChild
    obtain ⟨known, isParent⟩ := (wellFormed state.tree isTree).children site.scope _ (List.mem_of_getElem? isNext)
    rw [Nest.At] at fits
    have inner : Stands (site.inside place written) 0 nests (openScope state).2 := by
      rw [opened]
      refine ⟨hierarchy, isTree, ?_, nodes, noDrift, ⟨_, _, rfl⟩, _, [], (List.append_nil _).symm, fits⟩
      rw [Site.inside, Site.slots, isTree, Option.elim_some]
      exact sees.child (wellFormed state.tree isTree) known isParent
    have quiet' : Quiet (action (openScope state).1 (openScope state).2).2 := ((leaves _ _).quiet quiet).1
    exact (agrees _).finds ⟨isGiven, congrArg Prod.fst opened⟩ _ inner quiet'

end

/-! ### Bindings -/

section

/-- The value of an initializer is observed for the variable of its binding, which is the first of a scope. -/
def observeInit (scope : ScopeId) (init : Option (Expr × TypeId)) : Inference Unit := do
  match ((← get).tree.locals scope).head?, init with
  | some id, some (_, type) => observeValue id type
  | _, _ => return

theorem observeInit_eq (scope : ScopeId) (init : Option (Expr × TypeId)) (state : InferenceState) :
    observeInit scope init state =
      (match (state.tree.locals scope).head?, init with
        | some id, some (_, type) => observeValue id type
        | _, _ => return) state :=
  rfl

theorem observeInit_runs (scope : ScopeId) (init : Option (Expr × TypeId)) (state : InferenceState) :
    Runs [] state (observeInit scope init state).2 := by
  rw [observeInit_eq]
  cases (state.tree.locals scope).head? with
  | none => exact .done
  | some id =>
      cases init with
      | none => exact .done
      | some init => exact .learn (.value id init.2) .done

variable (rests : Rests site.hierarchy site.current site.tree)
include rests

theorem agrees_observeInit (scope : ScopeId) (name : String) (declared : TypeId) {info : Variable}
    {init told : Option (Expr × TypeId)}
    (isInfo : given → ∀ tree ∈ site.tree, info = (tree.slots scope).headD (.declared name declared))
    (same : given → Option.Rel (SameType site.hierarchy.types.size) init told) :
    Agrees given site place [] (observeInit scope init)
      (match told with
        | some (init, type) => Survey.flow (.variable info) type info.type init.position
        | none => pure ()) fun _ _ => True := by
  refine ⟨observeInit_runs scope init, fun isGiven state stands quiet => ⟨trivial, ?_⟩⟩
  have isInfo := isInfo isGiven state.tree stands.tree
  cases same isGiven with
  | none => exact .pure ()
  | @some init told sameType =>
      obtain ⟨isTold, absolute⟩ := sameType
      refine .flow _ fun isAuto => ?_
      rw [← isTold]
      rw [ScopeTree.slots] at isInfo
      cases ids : state.tree.locals scope with
      | nil =>
          -- without a variable, the declaration is as it is written, and open
          rw [ids] at isInfo
          have isOpen : info.type = .autoType := by
            rw [isInfo] at isAuto ⊢
            exact eq_of_beq isAuto
          rw [isOpen, Hierarchy.conforms]
          exact Bool.or_eq_true_iff.mpr (Or.inl (Bool.or_eq_true_iff.mpr (Or.inr rfl)))
      | cons id _ =>
          rw [ids] at isInfo
          obtain rfl : info = state.tree.variableAt id := isInfo
          rw [observeInit_eq, ids] at quiet
          have observed := updateVariable_quiet stands.facing.noDrift quiet
          rw [stands.hierarchy] at observed
          have conforms := Variable.conforms_of_observed rests.rooted (rests.slots state.tree stands.tree id) isAuto
            absolute observed (state.tree.variableAt id).type
          rwa [TypeId.resolveIn_self] at conforms

/-- One binding, and what is done in its scope. -/
theorem agrees_binding {nests : List Nest} (name : Ident) (written : Option Ident) (declared : TypeId)
    {rest : Inference (List (Binding Expr) × Expr × TypeId)} {surveyed : Survey (List (Binding Expr) × Expr × TypeId)}
    (agrees : ∀ given : Prop, Agrees given (site.inside place [.declared name.name declared]) 0 nests rest surveyed
      fun result told => SameType site.hierarchy.types.size result.2 told.2)
    (init told : Option (Expr × TypeId)) :
    Agrees (given ∧ Option.Rel (SameType site.hierarchy.types.size) init told) site place [.scope nests]
      (do
        let scope ← openScope
        match ((← get).tree.locals scope).head?, init with
        | some id, some (_, type) => observeValue id type
        | _, _ => pure ()
        let (bindings, body, type) ← rest
        closeScope
        return (Binding.mk name written (init.map Prod.fst) :: bindings, body, type))
      (do
        let info := (site.slots place [.declared name.name declared]).headD (.declared name.name declared)
        match told with
        | some (init, type) => Survey.flow (.variable info) type info.type init.position
        | none => pure ()
        let (bindings, body, type) ← surveyed
        return (Binding.mk name written (told.map Prod.fst) :: bindings, body, type))
      fun result told => SameType site.hierarchy.types.size result.2 told.2 := by
  let inner := site.inside place [.declared name.name declared]
  let info := (site.slots place [.declared name.name declared]).headD (.declared name.name declared)
  have observed (scope : ScopeId) : Agrees ((given ∧ Option.Rel (SameType site.hierarchy.types.size) init told) ∧
      scope = site.child place) inner 0 [] (observeInit scope init)
      (match told with
        | some (init, type) => Survey.flow (.variable info) type info.type init.position
        | none => pure ()) fun _ _ => True := by
    have rests : Rests inner.hierarchy inner.current inner.tree := rests
    refine agrees_observeInit rests scope name.name declared (fun isGiven tree isTree => ?_)
      fun isGiven => isGiven.1.2
    have isTree : site.tree = some tree := isTree
    rw [isGiven.2]
    show (site.slots place _).headD _ = _
    rw [Site.slots, isTree, Option.elim_some]
  have inside : Agrees (given ∧ Option.Rel (SameType site.hierarchy.types.size) init told) site place [.scope nests]
      _ _ _ := .inside (fun scope => observeInit scope init >>= fun _ => rest) [.declared name.name declared]
    rests.wellFormed fun scope => (observed scope).bind fun _ _ => agrees _
  have later (result told' : List (Binding Expr) × Expr × TypeId) :
      Agrees ((given ∧ Option.Rel (SameType site.hierarchy.types.size) init told) ∧
          SameType site.hierarchy.types.size result.2 told'.2) site (place + 1) []
        (pure (Binding.mk name written (init.map Prod.fst) :: result.1, result.2))
        (pure (Binding.mk name written (told.map Prod.fst) :: told'.1, told'.2))
        (fun result told => SameType site.hierarchy.types.size result.2 told.2) := .pure fun isGiven => isGiven.2
  have both := inside.bindSilent later
  have same : (do
      let scope ← openScope
      match ((← get).tree.locals scope).head?, init with
      | some id, some (_, type) => observeValue id type
      | _, _ => pure ()
      let (bindings, body, type) ← rest
      closeScope
      return (Binding.mk name written (init.map Prod.fst) :: bindings, body, type)) =
      ((openScope >>= fun scope => (observeInit scope init >>= fun _ => rest) >>= fun value =>
        closeScope >>= fun _ => Pure.pure value) >>= fun result =>
          pure (Binding.mk name written (init.map Prod.fst) :: result.1, result.2)) := by
    funext state
    simp only [bind, StateT.bind, observeInit, MonadState.get, getThe, MonadStateOf.get, StateT.get]
    obtain ⟨scope, entered⟩ := openScope state
    dsimp only [pure]
    cases (entered.tree.locals scope).head? <;> cases init <;> rfl
  rw [same]
  cases told with
  | none => exact both
  | some told => exact both

end

/-! ### What a survey finds by itself -/

section

variable {hierarchy : Hierarchy}

theorem dispatchType_value (receiver : TypeId) (cast : Option Ident) :
    (site.dispatchType receiver cast).value = (cast.map (castType site.hierarchy)).getD receiver := by
  cases cast with
  | none => rfl
  | some written =>
      unfold Site.dispatchType Hierarchy.get Option.map castType TypeId.expected?
      dsimp only
      cases site.hierarchy.find? written.name with
      | none => rfl
      | some type => cases concrete : type.isConcrete <;> simp only [concrete, Option.getD_some] <;> rfl

theorem dispatchType_blameless (receiver : TypeId) (cast : Option Ident) :
    (site.dispatchType receiver cast).Blameless hierarchy := by
  cases cast with
  | none => exact .pure _
  | some written =>
      unfold Site.dispatchType
      dsimp only
      split
      · exact .bind (.fault _ _) (.pure _)
      · split
        · exact .bind (.flow _ False.elim) (.pure _)
        · exact .bind (.fault _ _) (.pure _)

/-- The method that inference finds for a dispatch is the one that a survey finds. -/
theorem callee_value (site : Site) (owner : TypeId) (method : Ident) (args : Nat) :
    (∀ known, (site.callee owner method args).value = .inl known →
        ∃ definer, callee? site.hierarchy owner method args = some (definer, known)) ∧
      ∀ type, (site.callee owner method args).value = .inr type →
        callee? site.hierarchy owner method args = none ∧
          type = if owner.isConcrete then .error else owner := by
  unfold Site.callee callee?
  cases owner.isConcrete with
  | false => exact ⟨nofun, fun type same => ⟨rfl, (Sum.inr.inj same).symm⟩⟩
  | true =>
      simp only [Bool.not_true, Bool.false_eq_true, if_false, if_true]
      cases site.hierarchy.method? owner method.name with
      | none => exact ⟨nofun, fun type same => ⟨rfl, (Sum.inr.inj same).symm⟩⟩
      | some found =>
          obtain ⟨definer, known⟩ := found
          dsimp only
          by_cases fits : known.params.length = args
          · rw [if_pos fits, Option.filter_some, if_pos (beq_iff_eq.mpr fits)]
            exact ⟨fun other same => ⟨definer, by rw [← Sum.inl.inj same]⟩, nofun⟩
          · rw [if_neg fits, Option.filter_some, if_neg (mt beq_iff_eq.mp fits)]
            exact ⟨nofun, fun type same => ⟨rfl, (Sum.inr.inj same).symm⟩⟩

theorem method?_of_callee? {owner definer : TypeId} {method : Ident} {args : Nat} {known : Method}
    (found : callee? site.hierarchy owner method args = some (definer, known)) :
    (site.hierarchy.info definer).method? known.name = some known := by
  unfold callee? at found
  split at found
  · obtain ⟨isFound, _⟩ := Option.filter_eq_some_iff.mp found
    have isMethod := (Hierarchy.method?_mem isFound).2.1
    rwa [TypeInfo.method?_name isMethod]
  · cases found

theorem dispatchType_absolute (rests : Rests site.hierarchy site.current site.tree) {receiver : TypeId}
    (absolute : receiver.Absolute site.hierarchy.types.size) (cast : Option Ident) :
    (site.dispatchType receiver cast).value.Absolute site.hierarchy.types.size := by
  rw [dispatchType_value]
  cases cast with
  | none => exact absolute
  | some written => exact Invariant.typed_castType rests.gives written

theorem callee_blameless (owner : TypeId) (method : Ident) (args : Nat) :
    (site.callee owner method args).Blameless hierarchy := by
  unfold Site.callee
  split
  · exact .pure _
  · split
    · exact .bind (.fault _ _) (.pure _)
    · split
      · exact .pure _
      · exact .bind (.fault _ _) (.pure _)

theorem paramAt_callee (owner : TypeId) (method : Ident) (args place : Nat) :
    paramAt (callee? site.hierarchy owner method args) place =
      (Site.calleeParams (site.callee owner method args).value)[place]? := by
  obtain ⟨isKnown, isUnknown⟩ := callee_value site owner method args
  cases found : (site.callee owner method args).value with
  | inl known =>
      obtain ⟨definer, same⟩ := isKnown known found
      rw [same]
      rfl
  | inr type =>
      rw [(isUnknown type found).1]
      rfl

theorem dispatchResult_callee {size : Nat} {owner : TypeId} (absolute : owner.Absolute size) (receiver : TypeId)
    (method : Ident) (args : Nat) :
    dispatchResult (callee? site.hierarchy owner method args) receiver owner =
      Site.calleeResult receiver (site.callee owner method args).value := by
  obtain ⟨isKnown, isUnknown⟩ := callee_value site owner method args
  cases found : (site.callee owner method args).value with
  | inl known =>
      obtain ⟨definer, same⟩ := isKnown known found
      rw [same]
      rfl
  | inr type =>
      obtain ⟨none, isType⟩ := isUnknown type found
      rw [none, Site.calleeResult, isType, dispatchResult]
      have notSelf := absolute.notSelf
      by_cases isAuto : owner = .autoType
      · rw [if_pos isAuto, isAuto]
        rfl
      · rw [if_neg isAuto]
        split
        · rfl
        · rename_i unknown
          by_contra other
          refine unknown ?_
          simp only [TypeId.isConcrete, Bool.and_eq_true, bne_iff_ne]
          exact ⟨⟨notSelf, isAuto⟩, Ne.symm other⟩

theorem bindingType_blameless (written : Option Ident) : (site.bindingType written).Blameless hierarchy := by
  unfold Site.bindingType
  split
  · exact .pure _
  · split
    · exact .pure _
    · exact .bind (.fault _ _) (.pure _)

theorem branchType_blameless (seen : List TypeId) (written : Ident) :
    (site.branchType seen written).Blameless hierarchy := by
  unfold Site.branchType
  split
  · exact .bind (.fault _ _) (.pure _)
  · split
    · exact .bind (.fault _ _) (.pure _)
    · split
      · exact .bind (.fault _ _) (.pure _)
      · exact .pure _

theorem newType_value (isClass : site.hierarchy.IsClass site.current) (written : Ident) :
    newType site.hierarchy site.current written = (site.newType written).value := by
  unfold newType Site.newType Hierarchy.get TypeId.expected?
  cases found : site.hierarchy.find? written.name with
  | none => rfl
  | some type =>
      dsimp only
      by_cases isSelf : type = .selfType
      · rw [if_pos isSelf, TypeId.resolveIn, if_pos isSelf, if_pos isClass.concrete]
        rfl
      · rw [if_neg isSelf, TypeId.resolveIn, if_neg isSelf]
        by_cases isAuto : type = .autoType
        · rw [if_pos isAuto, isAuto]
          rfl
        · have concrete : type.isConcrete = true := by
            simp only [TypeId.isConcrete, Bool.and_eq_true, bne_iff_ne]
            exact ⟨⟨isSelf, isAuto⟩, (Hierarchy.find?_known found).2.1⟩
          rw [if_neg isAuto, if_pos concrete]
          rfl

theorem newType_blameless (written : Ident) : (site.newType written).Blameless hierarchy := by
  unfold Site.newType
  split
  · exact .bind (.fault _ _) (.pure _)
  · split
    · exact .pure _
    · split
      · exact .bind (.fault _ _) (.pure _)
      · exact .pure _

end

end Inference

end CoolLang
