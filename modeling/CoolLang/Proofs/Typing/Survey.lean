import CoolLang.Proofs.Scope.Opening
import CoolLang.Proofs.Typing.Declarations
import CoolLang.Proofs.Typing.Task

/-!
Typing is a function of the syntax. Where the tree is built, typing finds out what a survey without a tree
finds, and leaves variables as they are declared; where a walk over a finished tree is replayed, it finds
out what a survey over that tree finds (`Typing.check_tracks`).
-/

namespace CoolLang

open ScopeTree

namespace Nest

theorem AllAt.split {tree : ScopeTree} {place : Nat} {back : List Nest} {ids : List ScopeId} :
    {front : List Nest} → AllAt tree place (front ++ back) ids →
    ∃ first second, ids = first ++ second ∧ AllAt tree place front first ∧
      AllAt tree (place + front.length) back second
  | [], all => ⟨[], ids, rfl, trivial, all⟩
  | _ :: front, all => by
      obtain _ | ⟨id, ids⟩ := ids
      · exact all.elim
      · obtain ⟨first, second, rfl, one, two⟩ := @AllAt.split _ _ _ _ front all.2.2
        refine ⟨id :: first, second, rfl, ⟨all.1, all.2.1, one⟩, ?_⟩
        rwa [List.length_cons, Nat.add_comm front.length, ← Nat.add_assoc]

end Nest

/-- Whether a tree has the scopes of nests from a place on. -/
def Site.Fits (site : Site) (place : Nat) (nests : List Nest) : Prop :=
  ∀ tree ∈ site.tree, ∃ ids behind, (tree.children site.scope).drop place = ids ++ behind ∧
    Nest.AllAt tree place nests ids

theorem Site.Fits.split {site : Site} {place : Nat} {front back : List Nest}
    (fits : site.Fits place (front ++ back)) :
    site.Fits place front ∧ site.Fits (place + front.length) back := by
  refine ⟨fun tree isTree => ?_, fun tree isTree => ?_⟩
  all_goals
    obtain ⟨ids, behind, left, all⟩ := fits tree isTree
    obtain ⟨first, second, rfl, one, two⟩ := all.split
  · exact ⟨first, second ++ behind, by rw [left, List.append_assoc], one⟩
  · refine ⟨second, behind, ?_, two⟩
    rw [← List.drop_drop, left, List.append_assoc, one.length_eq, List.drop_left]

namespace Typing

/-- A state of typing in a scope, with the children of the scope up to a place gone through. -/
structure Stands (site : Site) (scope : ScopeId) (place : Nat) (outer : List CursorStep)
    (state : TypingState) : Prop where
  wellFormed : state.tree.WellFormed
  known : scope < state.tree.nodes.size
  sees : state.tree.Sees scope site.env
  building : site.tree = none → state.cursor = none ∧ (state.tree.children scope).length = place
  replaying : ∀ tree ∈ site.tree, state.tree = tree ∧ state.drift = none ∧ site.scope = scope ∧
    ∃ entered, state.cursor = some ⟨⟨scope, place⟩, outer, entered⟩

/-- What typing has come to, as a survey tells it. -/
structure Tracked {α : Type} (site : Site) (scope : ScopeId) (place count : Nat)
    (outer : List CursorStep) (survey : Survey α) (declared : ScopeTree → Declarations)
    (before : TypingState) (result : α × TypingState) : Prop where
  value : result.1 = survey.value
  found : result.2.found.toList = before.found.toList ++ survey.diagnostics site.hierarchy
  stands : Stands site scope (place + count) outer result.2
  growth : site.tree = none → Growth scope count before.tree result.2.tree
  /-- No variables have been added but those that are declared. -/
  vars : site.tree = none → ∀ final, result.2.tree.Stage final → ∀ info ∈ result.2.tree.vars,
    info ∈ before.tree.vars ∨ ∃ entry ∈ declared final, info ∈ entry.2
  /-- Every tree that this one grows into has the variables as they are declared. -/
  declared : site.tree = none → ∀ final, result.2.tree.Stage final →
    ∀ entry ∈ declared final, final.slots entry.1 = entry.2

/-- From every state at a site, an action goes through these scopes and comes to what a survey tells. -/
def Tracks {α : Type} (site : Site) (scope : ScopeId) (place : Nat) (nests : List Nest)
    (action : Typing α) (survey : Survey α) (declared : ScopeTree → Declarations) : Prop :=
  ∀ outer state, Stands site scope place outer state → site.Fits place nests →
    Tracked site scope place nests.length outer survey declared state (action state)

variable {α β : Type} {site : Site} {scope : ScopeId} {place : Nat}

/-- An action that opens no scope comes to what a survey tells. -/
def Silent (site : Site) (scope : ScopeId) (action : Typing α) (survey : Survey α) : Prop :=
  ∀ place, Tracks site scope place [] action survey fun _ => []

theorem Stands.withFound {outer : List CursorStep} {state : TypingState}
    (stands : Stands site scope place outer state) (found : Array Diagnostic) :
    Stands site scope place outer { state with found := found } :=
  ⟨stands.wellFormed, stands.known, stands.sees, stands.building, stands.replaying⟩

theorem Silent.of_found {action : Typing α} {survey : Survey α}
    (finds : ∀ state : TypingState, ∃ found, action state = (survey.value, { state with found := found }) ∧
      found.toList = state.found.toList ++ survey.diagnostics site.hierarchy) :
    Silent site scope action survey := by
  intro place outer state stands _
  obtain ⟨found, same, all⟩ := finds state
  rw [same]
  exact ⟨rfl, all, stands.withFound found, fun _ => .refl stands.wellFormed,
    fun _ _ _ _ member => Or.inl member, fun _ _ _ _ member => absurd member List.not_mem_nil⟩

namespace Tracks

variable {front back : List Nest} {action : Typing α} {next : α → Typing β} {one : Survey α}
  {two : α → Survey β} {first second : ScopeTree → Declarations}

/-- What is found out can be told by another value in the survey. -/
theorem bindMap {γ : Type} {told : Survey γ} {tell : γ → α} {two : γ → Survey β}
    (tracks : Tracks site scope place front action ⟨tell told.value, told.findings⟩ first)
    (tracks' : ∀ value, value = told.value →
      Tracks site scope (place + front.length) back (next (tell value)) (two value) second) :
    Tracks site scope place (front ++ back) (action >>= next) (told >>= two)
      (fun tree => first tree ++ second tree) := by
  intro outer state stands fits
  have before := tracks outer state stands fits.split.1
  have after := tracks' told.value rfl outer _ before.stands fits.split.2
  have same : (action >>= next) state = next (tell told.value) (action state).2 :=
    congrArg (next · (action state).2) before.value
  rw [same]
  refine ⟨after.value, ?_, ?_, fun building => ?_, fun building final stage info member => ?_,
    fun building final stage entry member => ?_⟩
  · rw [after.found, before.found, List.append_assoc, Survey.diagnostics, Survey.diagnostics,
      ← List.flatMap_append]
    rfl
  · rw [List.length_append, ← Nat.add_assoc]
    exact after.stands
  · rw [List.length_append]
    exact (before.growth building).trans (after.growth building)
  · rcases after.vars building final stage info member with isOld | ⟨entry, isSecond, isDeclared⟩
    · rcases before.vars building final ((after.growth building).stage.trans stage) info isOld with
        isOld | ⟨entry, isFirst, isDeclared⟩
      · exact Or.inl isOld
      · exact Or.inr ⟨entry, List.mem_append_left _ isFirst, isDeclared⟩
    · exact Or.inr ⟨entry, List.mem_append_right _ isSecond, isDeclared⟩
  · rcases List.mem_append.mp member with isFirst | isSecond
    · exact before.declared building final ((after.growth building).stage.trans stage) entry isFirst
    · exact after.declared building final stage entry isSecond

theorem bind (tracks : Tracks site scope place front action one first)
    (tracks' : ∀ value, Tracks site scope (place + front.length) back (next value) (two value) second) :
    Tracks site scope place (front ++ back) (action >>= next) (one >>= two)
      (fun tree => first tree ++ second tree) := by
  have tracks : Tracks site scope place front action ⟨id one.value, one.findings⟩ first := tracks
  exact tracks.bindMap fun value _ => tracks' value

/-- The second action opens no scope. -/
theorem bindSilent (tracks : Tracks site scope place front action one first)
    (silent : ∀ value, Silent site scope (next value) (two value)) :
    Tracks site scope place front (action >>= next) (one >>= two) first := by
  have both := tracks.bind fun value => silent value _
  simp only [List.append_nil] at both
  exact both

theorem pure (value : α) : Silent site scope (Pure.pure value) (Pure.pure value) :=
  .of_found fun state => ⟨state.found, rfl, (List.append_nil _).symm⟩

end Tracks

/-- The first action opens no scope. -/
theorem Silent.bind {nests : List Nest} {action : Typing α} {next : α → Typing β} {one : Survey α}
    {two : α → Survey β} {declared : ScopeTree → Declarations} (silent : Silent site scope action one)
    (tracks : ∀ value, Tracks site scope place nests (next value) (two value) declared) :
    Tracks site scope place nests (action >>= next) (one >>= two) declared :=
  (silent place).bind tracks

/-- What the second action does depends on what the first one has found out. -/
theorem Silent.bindMap {γ : Type} {nests : List Nest} {action : Typing α} {next : α → Typing β}
    {told : Survey γ} {tell : γ → α} {two : γ → Survey β} {declared : ScopeTree → Declarations}
    (silent : Silent site scope action ⟨tell told.value, told.findings⟩)
    (tracks : ∀ value, value = told.value →
      Tracks site scope place nests (next (tell value)) (two value) declared) :
    Tracks site scope place nests (action >>= next) (told >>= two) declared :=
  (silent place).bindMap tracks

theorem Silent.bindExact {nests : List Nest} {action : Typing α} {next : α → Typing β} {one : Survey α}
    {two : α → Survey β} {declared : ScopeTree → Declarations} (silent : Silent site scope action one)
    (tracks : ∀ value, value = one.value →
      Tracks site scope place nests (next value) (two value) declared) :
    Tracks site scope place nests (action >>= next) (one >>= two) declared := by
  have silent : Silent site scope action ⟨id one.value, one.findings⟩ := silent
  exact silent.bindMap tracks

/-- Neither action opens a scope. -/
theorem Silent.trans {action : Typing α} {next : α → Typing β} {one : Survey α} {two : α → Survey β}
    (silent : Silent site scope action one)
    (silent' : ∀ value, Silent site scope (next value) (two value)) :
    Silent site scope (action >>= next) (one >>= two) :=
  fun place => silent.bind fun value => silent' value place

/-! ### Steps -/

theorem silent_report (position : Position) (problem : Problem) :
    Silent site scope (report position problem) (Survey.fault position problem) :=
  .of_found fun state => ⟨state.found.push ⟨position, problem⟩, rfl, Array.toList_push⟩

theorem silent_refuse (position : Position) (problem : Problem) (value : α) :
    Silent site scope (report position problem >>= fun _ => pure value)
      (Survey.fault position problem >>= fun _ => pure value) :=
  (silent_report position problem).trans fun _ => Tracks.pure value

theorem silent_expectConforming (target : Target) (type expected : TypeId) (position : Position) :
    Silent site scope (expectConforming site.toSurroundings type expected position)
      (Survey.flow target type expected position) := by
  refine .of_found fun state => ?_
  unfold expectConforming
  have diagnostics : (Survey.flow target type expected position).diagnostics site.hierarchy =
      if site.hierarchy.conforms type expected then []
      else [⟨position, .incompatibleTypes (site.hierarchy.name type) (site.hierarchy.name expected)⟩] :=
    List.append_nil _
  rw [diagnostics]
  cases site.hierarchy.conforms type expected with
  | true => exact ⟨state.found, rfl, (List.append_nil _).symm⟩
  | false => exact ⟨_, rfl, Array.toList_push⟩

/-- What a name means is known before it is looked up. -/
theorem silent_lookUp (name : String) {next : Option Variable → Typing β} {survey : Survey β}
    (silent : Silent site scope (next (site.lookUp? name)) survey) :
    Silent site scope (lookUp scope name >>= next) survey := by
  intro place outer state stands fits
  have same : (lookUp scope name >>= next) state = next (site.lookUp? name) state :=
    congrArg (next · state) (stands.sees name)
  exact same ▸ silent place outer state stands fits

theorem silent_typeOfName (name : String) (position : Position) :
    Silent site scope (typeOfName site.toSurroundings scope name position)
      (site.typeOfName name position) := by
  refine silent_lookUp name ?_
  unfold Site.typeOfName
  cases site.lookUp? name with
  | none => exact silent_refuse _ _ _
  | some info => exact Tracks.pure _

theorem silent_checkTarget (target : Ident) (type : TypeId) (position : Position) :
    Silent site scope (checkTarget site.toSurroundings scope target type position)
      (site.surveyTarget target type position) := by
  unfold checkTarget Site.surveyTarget
  split
  · exact silent_report _ _
  · refine silent_lookUp target.name ?_
    cases site.lookUp? target.name with
    | none => exact silent_report _ _
    | some info => exact silent_expectConforming _ _ _ _

theorem silent_dispatchType (receiver : TypeId) (cast : Option Ident) :
    Silent site scope (dispatchType site.toSurroundings receiver cast)
      (site.dispatchType receiver cast) := by
  unfold dispatchType Site.dispatchType
  cases cast with
  | none => exact Tracks.pure _
  | some written =>
      dsimp only
      cases site.hierarchy.get written.name with
      | error error => exact silent_refuse _ _ _
      | ok type =>
          dsimp only
          split
          · exact (silent_expectConforming .operand _ _ _).trans fun _ => Tracks.pure _
          · exact silent_refuse _ _ _

/-- What typing knows of the method that a dispatch calls. -/
def calleeOf : Method ⊕ TypeId → Callee
  | .inl known => .method (known.params.map Variable.type) known.result.type
  | .inr type => .unknown type

theorem silent_callee (owner : TypeId) (method : Ident) (args : Nat) :
    Silent site scope (callee site.toSurroundings owner method args)
      ⟨calleeOf (site.callee owner method args).value, (site.callee owner method args).findings⟩ := by
  unfold callee Site.callee
  split
  · exact Tracks.pure _
  · cases site.hierarchy.method? owner method.name with
    | none => exact silent_refuse _ _ (Callee.unknown .error)
    | some found =>
        dsimp only
        split
        · exact Tracks.pure _
        · exact silent_refuse _ _ (Callee.unknown .error)

theorem silent_bindingType (written : Option Ident) :
    Silent site scope (bindingType site.toSurroundings written) (site.bindingType written) := by
  unfold bindingType Site.bindingType
  cases written with
  | none => exact Tracks.pure _
  | some written =>
      dsimp only
      cases site.hierarchy.get written.name with
      | error error => exact silent_refuse _ _ _
      | ok type => exact Tracks.pure _

theorem silent_branchType (seen : List TypeId) (written : Ident) :
    Silent site scope (branchType site.toSurroundings seen written) (site.branchType seen written) := by
  unfold branchType Site.branchType
  cases site.hierarchy.get written.name with
  | error error => exact silent_refuse _ _ _
  | ok type =>
      dsimp only
      split
      · exact silent_refuse _ _ _
      · split
        · exact silent_refuse _ _ _
        · exact Tracks.pure _

theorem silent_newType (written : Ident) :
    Silent site scope (newType site.toSurroundings written) (site.newType written) := by
  unfold newType Site.newType
  cases site.hierarchy.get written.name with
  | error error => exact silent_refuse _ _ _
  | ok type =>
      dsimp only
      split
      · exact Tracks.pure _
      · split
        · exact silent_refuse _ _ _
        · exact Tracks.pure _

/-! ### Scopes -/

/-- Declaring these variables in a scope, for which the scope has those slots, returns this value. -/
def Declares {γ : Type} (written slots : List Variable) (step : ScopeId → Typing γ) (value : γ) : Prop :=
  ∀ child state,
    (state.cursor = none → slots = written →
      step child state = (value, { state with tree := state.tree.defineAll child written })) ∧
    (state.cursor ≠ none → state.tree.slots child = slots → step child state = (value, state))

theorem declares_nothing (slots : List Variable) : Declares [] slots (fun _ => pure ()) () :=
  fun _ _ => ⟨fun _ _ => rfl, fun _ _ => rfl⟩

theorem declares_one (info : Variable) (slots : List Variable) :
    Declares [info] slots (fun child => declare child 0 info) (slots.headD info).type := by
  intro child state
  refine ⟨fun building isWritten => ?_, fun replaying isSlots => ?_⟩
  · change declare child 0 info state = _
    rw [declare_of_building 0 info building, isWritten]
    rfl
  · obtain ⟨tree, _ | cursor, drift, found⟩ := state
    · exact absurd rfl replaying
    · unfold declare
      simp only [bind, StateT.bind, get, getThe, MonadStateOf.get, StateT.get, pure]
      have isSlots : (tree.locals child).map tree.variableAt = slots := isSlots
      rw [← isSlots]
      cases tree.locals child <;> rfl

theorem Declares.ignore {γ : Type} {written slots : List Variable} {step : ScopeId → Typing γ}
    {value : γ} (declares : Declares written slots step value) :
    Declares written slots (fun child => step child >>= fun _ => pure ()) () := by
  intro child state
  obtain ⟨build, replay⟩ := declares child state
  refine ⟨fun building isWritten => ?_, fun replaying isSlots => ?_⟩
  · change ((), (step child state).2) = _
    rw [build building isWritten]
  · change ((), (step child state).2) = _
    rw [replay replaying isSlots]

theorem declareParams_of_building (around : Surroundings) (params : List Param) {place : Nat}
    {state : TypingState} (building : state.cursor = none) :
    declareParams around scope place params state = ((), { state with
      tree := state.tree.defineAll scope
        (params.map fun param => .declared param.name.name (around.paramType param)) }) := by
  induction params generalizing place state with
  | nil => rfl
  | cons param params ih =>
      change declareParams around scope (place + 1) params
        (declare scope place (.declared param.name.name (around.paramType param)) state).2 = _
      rw [declare_of_building place _ building]
      exact @ih (place + 1) { state with tree := _ } building

theorem declareParams_of_replaying (around : Surroundings) (params : List Param) {place : Nat}
    {state : TypingState} (replaying : state.cursor ≠ none) :
    declareParams around scope place params state = ((), state) := by
  obtain ⟨cursor, isCursor⟩ := Option.ne_none_iff_exists'.mp replaying
  induction params generalizing place with
  | nil => rfl
  | cons param params ih =>
      change declareParams around scope (place + 1) params
        (declare scope place (.declared param.name.name (around.paramType param)) state).2 = _
      rw [declare_of_replaying place _ isCursor, ih]

section

variable {outer : List CursorStep} {inner : List Nest} {written : List Variable} {before : TypingState}

/-- What a state comes to when a scope is opened in it and these variables are declared there. -/
structure Entered (site : Site) (scope : ScopeId) (place : Nat) (outer : List CursorStep) (inner : List Nest)
    (written : List Variable) (before : TypingState) (child : ScopeId) (entered : TypingState) : Prop where
  found : entered.found = before.found
  stands : Stands (site.inside place written) child 0 (⟨scope, place + 1⟩ :: outer) entered
  fits : (site.inside place written).Fits 0 inner
  building : site.tree = none →
    child = before.tree.nodes.size ∧ entered.tree = before.tree.openWith scope written
  complete : ∀ tree ∈ site.tree, (tree.children child).length = inner.length

theorem Stands.entered_of_building (stands : Stands site scope place outer before) (isTree : site.tree = none) :
    Entered site scope place outer inner written before before.tree.nodes.size
      { before with tree := before.tree.openWith scope written } := by
  have noTree (tree : ScopeTree) (member : tree ∈ site.tree) : False :=
    Option.not_mem_none tree (isTree ▸ member)
  have slots : site.slots place written = written := by rw [Site.slots, isTree]; rfl
  obtain ⟨growth, size, _, childless, isParent, declared⟩ := openWith_spec written stands.wellFormed stands.known
  have isNew : before.tree.nodes.size < (before.tree.openWith scope written).nodes.size := by
    rw [size]
    exact Nat.lt_succ_self _
  have sees := (stands.sees.of_stage growth.stage stands.wellFormed stands.known).child growth.wellFormed isNew isParent
  rw [declared] at sees
  refine ⟨rfl, ⟨growth.wellFormed, isNew, ?_, fun _ => ⟨(stands.building isTree).1, ?_⟩,
    fun tree member => (noTree tree member).elim⟩, fun tree member => (noTree tree member).elim, fun _ => ⟨rfl, rfl⟩,
    fun tree member => (noTree tree member).elim⟩
  · rw [Site.inside, slots]
    exact sees
  · rw [childless]
    rfl

theorem Stands.exists_entered_of_replaying (stands : Stands site scope place outer before)
    (fits : site.Fits place [.scope inner]) {tree : ScopeTree} (isTree : site.tree = some tree) :
    ∃ child entered, openScope scope before = (child, entered) ∧ entered.cursor ≠ none ∧
      entered.tree.slots child = site.slots place written ∧
      Entered site scope place outer inner written before child entered := by
  obtain ⟨rfl, noDrift, isScope, entered, isCursor⟩ := stands.replaying tree isTree
  have isSame (other : ScopeTree) (isOther : other ∈ site.tree) : before.tree = other :=
    Option.some.inj (isTree.symm.trans isOther)
  obtain ⟨ids, behind, left, all⟩ := fits _ isTree
  obtain _ | ⟨id, ids⟩ := ids
  · exact all.elim
  obtain ⟨isPlace, inside, _⟩ := all
  rw [Nest.At] at inside
  rw [isScope] at left
  obtain ⟨isNext, _⟩ := next_of_drop left
  obtain ⟨isKnown, isParent⟩ := stands.wellFormed.children scope id (List.mem_of_getElem? isNext)
  have isChild : site.child place = id := by
    rw [Site.child, isTree, isScope]
    exact ScopeTree.child_of_getElem? isNext
  have slots : site.slots place written = before.tree.slots id := by
    rw [Site.slots, isTree, isChild]
    rfl
  refine ⟨id, { before with cursor := some ⟨⟨id, 0⟩, ⟨scope, place + 1⟩ :: outer, entered.push id⟩ },
    openScope_of_replaying isCursor (Cursor.enter_eq_ok isNext isPlace), nofun, slots.symm, rfl,
    ⟨stands.wellFormed, isKnown, ?_, fun building => ?_, fun other isOther => ?_⟩, fun other isOther => ?_,
    fun building => ?_, fun other isOther => ?_⟩
  · rw [Site.inside, slots]
    exact stands.sees.child stands.wellFormed isKnown isParent
  · exact absurd (isTree.symm.trans building) nofun
  · exact ⟨isSame other isOther, noDrift, isChild, _, rfl⟩
  · obtain rfl := isSame other isOther
    refine ⟨before.tree.children id, [], ?_, inside⟩
    rw [List.append_nil, show (site.inside place written).scope = id from isChild]
    rfl
  · exact absurd (isTree.symm.trans building) nofun
  · obtain rfl := isSame other isOther
    exact inside.length_eq.symm

theorem exists_entered {γ : Type} {step : ScopeId → Typing γ} {value : γ}
    (stands : Stands site scope place outer before) (fits : site.Fits place [.scope inner])
    (declares : Declares written (site.slots place written) step value) :
    ∃ child entered, (openScope scope before).1 = child ∧
      step child (openScope scope before).2 = (value, entered) ∧
      Entered site scope place outer inner written before child entered := by
  cases isTree : site.tree with
  | none =>
      have building := (stands.building isTree).1
      have slots : site.slots place written = written := by rw [Site.slots, isTree]; rfl
      refine ⟨_, _, ?_, ?_, stands.entered_of_building isTree⟩ <;> rw [openScope_of_building building]
      exact (declares _ { before with tree := (before.tree.createChild scope).2 }).1 building slots
  | some tree =>
      obtain ⟨child, entered, isOpened, replaying, slots, stands'⟩ :=
        stands.exists_entered_of_replaying fits isTree
      refine ⟨child, entered, ?_, ?_, stands'⟩ <;> rw [isOpened]
      exact (declares child entered).2 replaying slots

variable {survey : Survey α} {declared : ScopeTree → ScopeId → Declarations} {child : ScopeId}
  {between : TypingState} {result : α × TypingState}

/-- Where the tree is built, the scope that has been opened is the last one around what follows. -/
theorem Entered.leave_of_building (entered : Entered site scope place outer inner written before child between)
    (stands : Stands site scope place outer before)
    (after : Tracked (site.inside place written) child 0 inner.length (⟨scope, place + 1⟩ :: outer) survey
      (fun tree => declared tree child) between result)
    (isTree : site.tree = none) :
    Tracked site scope place 1 outer survey
      (fun tree => (tree.child scope place, written) :: declared tree (tree.child scope place)) before
      (result.1, (closeScope result.2).2) := by
  obtain ⟨rfl, isTree'⟩ := entered.building isTree
  have noCursor := (after.stands.building isTree).1
  obtain ⟨opened, size, children, _, _, slots⟩ := openWith_spec written stands.wellFormed stands.known
  have grown := after.growth isTree
  rw [isTree'] at grown
  have growth := opened.inside stands.known grown
  have isNew : before.tree.nodes.size < (before.tree.openWith scope written).nodes.size := by
    rw [size]
    exact Nat.lt_succ_self _
  have isChild (final : ScopeTree) (stage : result.2.tree.Stage final) :
      final.child scope place = before.tree.nodes.size := by
    refine (grown.stage.trans stage).child (Nat.lt_of_lt_of_le stands.known opened.stage.size_le) ?_
    rw [children, ← (stands.building isTree).2, List.getElem?_concat_length]
  rw [closeScope_of_building noCursor]
  refine ⟨after.value, entered.found ▸ after.found, ⟨growth.wellFormed, ?_, ?_, fun _ => ⟨noCursor, ?_⟩,
    fun tree member => ?_⟩, fun _ => growth, fun _ final stage info member => ?_,
    fun _ final stage entry member => ?_⟩
  · exact Nat.lt_of_lt_of_le stands.known growth.stage.size_le
  · exact stands.sees.of_stage growth.stage stands.wellFormed stands.known
  · rw [growth.more, (stands.building isTree).2]
  · exact absurd (isTree ▸ member : tree ∈ none) (Option.not_mem_none tree)
  · rcases after.vars isTree final stage info member with isOpened | ⟨entry, inside, isDeclared⟩
    · rw [isTree'] at isOpened
      rcases mem_vars_openWith isOpened with isOld | isWritten
      · exact Or.inl isOld
      · exact Or.inr ⟨_, List.mem_cons_self, isWritten⟩
    · rw [← isChild final stage] at inside
      exact Or.inr ⟨entry, List.mem_cons_of_mem _ inside, isDeclared⟩
  · rw [isChild final stage] at member
    rcases List.mem_cons.mp member with rfl | inside
    · exact ((grown.stage.trans stage).slots opened.wellFormed isNew).trans slots
    · exact after.declared isTree final stage entry inside

/-- Where a walk is replayed, all scopes inside have been gone through, and the cursor may leave. -/
theorem Entered.leave_of_replaying (entered : Entered site scope place outer inner written before child between)
    (stands : Stands site scope place outer before)
    (after : Tracked (site.inside place written) child 0 inner.length (⟨scope, place + 1⟩ :: outer) survey
      (fun tree => declared tree child) between result)
    {tree : ScopeTree} (isTree : site.tree = some tree) :
    Tracked site scope place 1 outer survey
      (fun tree => (tree.child scope place, written) :: declared tree (tree.child scope place)) before
      (result.1, (closeScope result.2).2) := by
  obtain ⟨isTree', noDrift, _, entered', isCursor⟩ := after.stands.replaying tree isTree
  obtain ⟨same, _, isScope, _⟩ := stands.replaying tree isTree
  rw [Nat.zero_add] at isCursor
  have left : Cursor.leave result.2.tree ⟨⟨child, inner.length⟩, ⟨scope, place + 1⟩ :: outer, entered'⟩ =
      .ok ⟨⟨scope, place + 1⟩, outer, entered'⟩ :=
    Cursor.leave_eq_ok (isTree' ▸ (entered.complete tree isTree).symm)
  rw [closeScope_of_replaying isCursor left]
  refine ⟨after.value, entered.found ▸ after.found, ⟨after.stands.wellFormed, ?_, ?_, fun building => ?_,
    fun other isOther => ?_⟩, fun building => ?_, fun building => ?_, fun building => ?_⟩
  · exact isTree' ▸ same ▸ stands.known
  · exact isTree' ▸ same ▸ stands.sees
  · exact absurd (isTree.symm.trans building) nofun
  · cases isTree.symm.trans isOther
    exact ⟨isTree', noDrift, isScope, entered', rfl⟩
  all_goals exact absurd (isTree.symm.trans building) nofun

end

/-- A scope is gone through with the variables that are declared in it. -/
theorem tracks_inside {γ : Type} {inner : List Nest} {step : ScopeId → Typing γ} {value : γ}
    {written : List Variable} {survey : Survey α} (scope : ScopeId) (body : ScopeId → γ → Typing α)
    (declared : ScopeTree → ScopeId → Declarations)
    (declares : Declares written (site.slots place written) step value)
    (tracks : ∀ child, Tracks (site.inside place written) child 0 inner (body child value) survey
      fun tree => declared tree child) :
    Tracks site scope place [.scope inner]
      (openScope scope >>= fun child => step child >>= fun value => body child value >>= fun result =>
        closeScope >>= fun _ => pure result) survey
      (fun tree => (tree.child scope place, written) :: declared tree (tree.child scope place)) := by
  intro outer state stands fits
  obtain ⟨child, between, isChild, isStep, entered⟩ := exists_entered stands fits declares
  have after := tracks child _ between entered.stands entered.fits
  change Tracked site scope place 1 outer survey _ state
    ((body (openScope scope state).1 (step (openScope scope state).1 (openScope scope state).2).1
      (step (openScope scope state).1 (openScope scope state).2).2).1,
      (closeScope (body (openScope scope state).1 (step (openScope scope state).1
        (openScope scope state).2).1 (step (openScope scope state).1 (openScope scope state).2).2).2).2)
  rw [isChild, isStep]
  cases isTree : site.tree with
  | none => exact entered.leave_of_building stands after isTree
  | some tree => exact entered.leave_of_replaying stands after isTree

theorem bindingType_value (written : Option Ident) : (site.bindingType written).value =
    Inference.bindingType site.hierarchy site.current written := by
  cases written with
  | none => rfl
  | some written =>
      unfold Site.bindingType Hierarchy.get Inference.bindingType
      dsimp only
      cases site.hierarchy.find? written.name <;> rfl

theorem branchType_value (seen : List TypeId) (written : Ident) :
    (site.branchType seen written).value.1 = Inference.castType site.hierarchy written := by
  unfold Site.branchType Hierarchy.get Inference.castType TypeId.expected?
  cases site.hierarchy.find? written.name with
  | none => rfl
  | some type =>
      by_cases concrete : type.isConcrete = true
      · simp only [Option.getD_some, concrete, Bool.not_true, Bool.false_eq_true, if_false, if_true]
        split <;> rfl
      · simp only [Option.getD_some, concrete, Bool.not_false, if_true]
        rfl

/-! ### Expressions -/

mutual

theorem check_tracks (site : Site) (scope : ScopeId) (place : Nat) : (expr : Expr) →
    Tracks site scope place expr.nests (check site.toSurroundings scope expr) (site.survey place expr)
      (fun tree => site.declarations tree scope place expr)
  | .integer note value => by
      simp only [check, Site.survey, Surroundings.declarations, Expr.nests]
      exact Tracks.pure _ place
  | .string note value => by
      simp only [check, Site.survey, Surroundings.declarations, Expr.nests]
      exact Tracks.pure _ place
  | .boolean note value => by
      simp only [check, Site.survey, Surroundings.declarations, Expr.nests]
      exact Tracks.pure _ place
  | .identifier note name => by
      simp only [check, Site.survey, Surroundings.declarations, Expr.nests]
      exact (silent_typeOfName name note.position).trans (fun _ => Tracks.pure _) place
  | .assign note target value => by
      simp only [check, Site.survey, Surroundings.declarations, Expr.nests]
      exact (check_tracks site scope place value).bindSilent fun ⟨value, type⟩ =>
        (silent_checkTarget target type value.position).trans fun _ => Tracks.pure _
  | .dispatch note receiver cast method args => by
      simp only [check, Site.survey, Surroundings.declarations, Expr.nests]
      refine (checkReceiver_tracks site scope place receiver).bind fun ⟨receiver, receiverType⟩ =>
        (silent_dispatchType receiverType cast).bind fun owner =>
        (silent_callee owner method args.length).bindMap fun callee _ => ?_
      rcases callee with known | type
      · exact (checkArgs_tracks site scope _ args known.params).bindSilent fun args => Tracks.pure _
      · exact (checkArgs_tracks site scope _ args []).bindSilent fun args => Tracks.pure _
  | .cond note test yes no => by
      simp only [check, Site.survey, Surroundings.declarations, Expr.nests]
      exact (check_tracks site scope place test).bind fun ⟨test, testType⟩ =>
        (silent_expectConforming .operand testType .bool test.position).bind fun _ =>
        (check_tracks site scope _ yes).bind fun ⟨yes, yesType⟩ =>
        (check_tracks site scope _ no).bindSilent fun ⟨no, noType⟩ => Tracks.pure _
  | .loop note test body => by
      simp only [check, Site.survey, Surroundings.declarations, Expr.nests]
      exact (check_tracks site scope place test).bind fun ⟨test, testType⟩ =>
        (silent_expectConforming .operand testType .bool test.position).bind fun _ =>
        (check_tracks site scope _ body).bindSilent fun ⟨body, _⟩ => Tracks.pure _
  | .block note body => by
      simp only [check, Site.survey, Surroundings.declarations, Expr.nests]
      have inside := tracks_inside scope (fun child _ => checkAll site.toSurroundings child .object body)
        (fun tree child => site.declarationsAll tree child 0 body)
        (declares_nothing (site.slots place [])) fun child =>
        checkAll_tracks (site.inside place []) child 0 .object body
      have later (result : List Expr × TypeId) : Silent site scope
          (pure (Expr.block (note.typed result.2) result.1, result.2))
          (pure (Expr.block (note.typed result.2) result.1, result.2)) := Tracks.pure _
      exact inside.bindSilent later
  | .letIn note bindings body => by
      simp only [check, Site.survey, Surroundings.declarations, Expr.nests]
      exact (checkBindings_tracks site scope place bindings fun inner env scope place =>
        check_tracks { site with scope := inner, env := env } scope place body).bindSilent
        fun ⟨bindings, body, type⟩ => Tracks.pure _
  | .caseOf note scrutinee branches => by
      simp only [check, Site.survey, Surroundings.declarations, Expr.nests]
      exact (check_tracks site scope place scrutinee).bind fun ⟨scrutinee, _⟩ =>
        (checkBranches_tracks site scope _ [] none branches).bindSilent
        fun ⟨branches, type⟩ => Tracks.pure _
  | .new note written => by
      simp only [check, Site.survey, Surroundings.declarations, Expr.nests]
      exact (silent_newType written).trans (fun _ => Tracks.pure _) place
  | .isVoid note operand => by
      simp only [check, Site.survey, Surroundings.declarations, Expr.nests]
      exact (check_tracks site scope place operand).bindSilent fun ⟨operand, _⟩ => Tracks.pure _
  | .not note operand => by
      simp only [check, Site.survey, Surroundings.declarations, Expr.nests]
      exact (check_tracks site scope place operand).bindSilent fun ⟨operand, type⟩ =>
        (silent_expectConforming .operand type .bool operand.position).trans fun _ => Tracks.pure _
  | .complement note operand => by
      simp only [check, Site.survey, Surroundings.declarations, Expr.nests]
      exact (check_tracks site scope place operand).bindSilent fun ⟨operand, type⟩ =>
        (silent_expectConforming .operand type .int operand.position).trans fun _ => Tracks.pure _
  | .binary note operator left right => by
      simp only [check, Site.survey, Surroundings.declarations, Expr.nests]
      refine (check_tracks site scope place left).bind fun ⟨left, leftType⟩ =>
        (check_tracks site scope _ right).bindSilent fun ⟨right, rightType⟩ => ?_
      dsimp only
      split
      · exact silent_refuse _ _ _
      · exact Tracks.pure _

theorem checkReceiver_tracks (site : Site) (scope : ScopeId) (place : Nat) :
    (receiver : Option Expr) →
    Tracks site scope place (Expr.nestsOption receiver)
      (checkReceiver site.toSurroundings scope receiver) (site.surveyReceiver place receiver)
      (fun tree => site.declarationsOption tree scope place receiver)
  | none => by
      simp only [checkReceiver, Site.surveyReceiver, Surroundings.declarationsOption, Expr.nestsOption]
      exact Tracks.pure _ place
  | some receiver => by
      simp only [checkReceiver, Site.surveyReceiver, Surroundings.declarationsOption, Expr.nestsOption]
      exact (check_tracks site scope place receiver).bindSilent fun ⟨_, _⟩ => Tracks.pure _

theorem checkArgs_tracks (site : Site) (scope : ScopeId) (place : Nat) :
    (args : List Expr) → (params : List Variable) →
    Tracks site scope place (Expr.nestsAll args)
      (checkArgs site.toSurroundings scope args (params.map Variable.type))
      (site.surveyArgs place args params)
      (fun tree => site.declarationsAll tree scope place args)
  | [], _ => by
      simp only [checkArgs, Site.surveyArgs, Surroundings.declarationsAll, Expr.nestsAll]
      exact Tracks.pure _ place
  | arg :: args, params => by
      simp only [checkArgs, Site.surveyArgs, Surroundings.declarationsAll, Expr.nestsAll]
      refine (check_tracks site scope place arg).bind fun ⟨arg, type⟩ => ?_
      cases params with
      | nil => exact (checkArgs_tracks site scope _ args []).bindSilent fun args => Tracks.pure _
      | cons param params =>
          exact (silent_expectConforming (.param param) type param.type arg.position).bind fun _ =>
            (checkArgs_tracks site scope _ args params).bindSilent fun args => Tracks.pure _

theorem checkAll_tracks (site : Site) (scope : ScopeId) (place : Nat) (last : TypeId) :
    (exprs : List Expr) →
    Tracks site scope place (Expr.nestsAll exprs) (checkAll site.toSurroundings scope last exprs)
      (site.surveyAll place last exprs) (fun tree => site.declarationsAll tree scope place exprs)
  | [] => by
      simp only [checkAll, Site.surveyAll, Surroundings.declarationsAll, Expr.nestsAll]
      exact Tracks.pure _ place
  | expr :: exprs => by
      simp only [checkAll, Site.surveyAll, Surroundings.declarationsAll, Expr.nestsAll]
      exact (check_tracks site scope place expr).bind fun ⟨expr, type⟩ =>
        (checkAll_tracks site scope _ type exprs).bindSilent fun ⟨exprs, type⟩ => Tracks.pure _

theorem checkBindings_tracks (site : Site) (scope : ScopeId) (place : Nat) {nests : List Nest}
    {body : ScopeId → Typing (Expr × TypeId)} {surveyed : Site → Nat → Survey (Expr × TypeId)}
    {declared : ScopeTree → ScopeId → Nat → Declarations} : (bindings : List (Binding Expr)) →
    (∀ inner env scope place, Tracks { site with scope := inner, env := env } scope place nests
      (body scope) (surveyed { site with scope := inner, env := env } place)
      fun tree => declared tree scope place) →
    Tracks site scope place (Expr.nestsBindings nests bindings)
      (checkBindings site.toSurroundings scope bindings body)
      (site.surveyBindings place bindings surveyed)
      (fun tree => site.declarationsBindings tree scope place bindings (declared tree))
  | [], tracks => by
      simp only [checkBindings, Site.surveyBindings, Surroundings.declarationsBindings,
        Expr.nestsBindings]
      exact (tracks site.scope site.env scope place).bindSilent fun ⟨_, _⟩ => Tracks.pure _
  | ⟨name, written, init⟩ :: bindings, tracks => by
      simp only [checkBindings, Site.surveyBindings, Surroundings.declarationsBindings,
        Expr.nestsBindings]
      refine (silent_bindingType written).bindExact fun declared' isDeclared =>
        (checkInit_tracks site scope place init).bind fun init' => ?_
      rw [Surroundings.bindingVariable, ← bindingType_value, ← isDeclared]
      have rest (child : ScopeId) := checkBindings_tracks
        (site.inside (place + (Expr.nestsOption init).length) [.declared name.name declared']) child 0
        bindings tracks
      have later (result : List (Binding Expr) × Expr × TypeId) : Silent site scope
          (pure (Binding.mk name written (init'.map Prod.fst) :: result.1, result.2))
          (pure (Binding.mk name written (init'.map Prod.fst) :: result.1, result.2)) := Tracks.pure _
      cases init' with
      | none =>
          have inside := tracks_inside scope
            (fun child _ => checkBindings site.toSurroundings child bindings body)
            (fun tree child => site.declarationsBindings tree child 0 bindings (declared tree))
            (declares_one (.declared name.name declared') _) rest
          exact inside.bindSilent later
      | some typed =>
          let info := (site.slots (place + (Expr.nestsOption init).length)
            [.declared name.name declared']).headD (.declared name.name declared')
          have inside := tracks_inside scope
            (fun child declared => do
              expectConforming site.toSurroundings typed.2 declared typed.1.position
              checkBindings site.toSurroundings child bindings body)
            (fun tree child => site.declarationsBindings tree child 0 bindings (declared tree))
            (declares_one (.declared name.name declared') _) fun child =>
              (silent_expectConforming (.variable info) typed.2 _ typed.1.position).bind fun _ => rest child
          exact inside.bindSilent later

theorem checkInit_tracks (site : Site) (scope : ScopeId) (place : Nat) : (init : Option Expr) →
    Tracks site scope place (Expr.nestsOption init) (checkInit site.toSurroundings scope init)
      (site.surveyInit place init) (fun tree => site.declarationsOption tree scope place init)
  | none => by
      simp only [checkInit, Site.surveyInit, Surroundings.declarationsOption, Expr.nestsOption]
      exact Tracks.pure _ place
  | some init => by
      simp only [checkInit, Site.surveyInit, Surroundings.declarationsOption, Expr.nestsOption]
      exact (check_tracks site scope place init).bindSilent fun _ => Tracks.pure _

theorem checkBranches_tracks (site : Site) (scope : ScopeId) (place : Nat) (seen : List TypeId)
    (type : Option TypeId) : (branches : List (Branch Expr)) →
    Tracks site scope place (Expr.nestsBranches branches)
      (checkBranches site.toSurroundings scope seen type branches)
      (site.surveyBranches place seen type branches)
      (fun tree => site.declarationsBranches tree scope place branches)
  | [] => by
      simp only [checkBranches, Site.surveyBranches, Surroundings.declarationsBranches,
        Expr.nestsBranches]
      exact Tracks.pure _ place
  | ⟨name, written, body⟩ :: branches => by
      simp only [checkBranches, Site.surveyBranches, Surroundings.declarationsBranches,
        Expr.nestsBranches]
      refine (silent_branchType seen written).bindExact fun ⟨declared, seen'⟩ isDeclared => ?_
      have isBranch : site.branchVariable name written = .declared name.name declared := by
        rw [Surroundings.branchVariable, ← branchType_value seen written, ← isDeclared]
      rw [isBranch]
      have inside := tracks_inside scope (fun child _ => check site.toSurroundings child body)
        (fun tree child => site.declarations tree child 0 body)
        (declares_one (.declared name.name declared) (site.slots place [.declared name.name declared]))
        fun child => check_tracks (site.inside place [.declared name.name declared]) child 0 body
      have later (result : Expr × TypeId) := (checkBranches_tracks site scope (place + 1) seen'
        (some (type.elim result.2 fun type => site.hierarchy.union type result.2)) branches).bindSilent
          fun rest => Tracks.pure (Branch.mk name written result.1 :: rest.1, rest.2)
      exact inside.bind later

end

end Typing

end CoolLang
