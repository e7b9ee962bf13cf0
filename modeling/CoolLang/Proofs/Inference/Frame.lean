import CoolLang.Proofs.Hierarchy.Bare
import CoolLang.Proofs.Hierarchy.Distinct
import CoolLang.Proofs.Inference.Invariant
import CoolLang.Proofs.Inference.Visits

/-!
What inference leaves alone. A declaration with a written type stays as it is, and one that is open changes
its type only. Merging what is known of a parameter keeps to that where the variable and the parameter are
both open or both declared, and so does recording attributes; every other lesson does so by itself
(`Inference.visit_frames`).
-/

namespace CoolLang

/-! ### Declarations -/

namespace Variable

/-- How inference may change a declaration: if at all, then by inferring the type of one that is open. -/
structure Frames (before after : Variable) : Prop where
  name : after.name = before.name
  auto : after.auto = before.auto
  opens : after.auto = true → before.type = .autoType
  allowed : after.inferred = true → after.auto = true
  waits : after.inferred = false → after = before

variable {before after info other : Variable} {join : TypeId → TypeId → TypeId} {type : TypeId}

theorem declared_frames (name : String) (type : TypeId) :
    (declared name type).Frames (declared name type) :=
  ⟨rfl, rfl, eq_of_beq, nofun, fun _ => rfl⟩

/-- A declaration with a written type stays as it is. -/
theorem Frames.eq_of_ne_autoType (frames : before.Frames after) (isWritten : before.type ≠ .autoType) :
    after = before :=
  frames.waits (eq_false_of_ne_true fun inferred => isWritten (frames.opens (frames.allowed inferred)))

theorem Frames.settle (frames : before.Frames info) (isOpen : info.auto = true) (type : TypeId) :
    before.Frames (info.settle type) :=
  ⟨frames.name, frames.auto, frames.opens, fun _ => isOpen, nofun⟩

theorem Frames.observeHint (frames : before.Frames info) (type : TypeId) :
    before.Frames (info.observeHint type) := by
  unfold Variable.observeHint
  split
  · rename_i accepted
    have isOpen := (Bool.and_eq_true_iff.mp accepted).1
    exact frames.settle (Bool.and_eq_true_iff.mp isOpen).1 type
  · exact frames

theorem Frames.observeValue (frames : before.Frames info) (type : TypeId) :
    before.Frames (info.observeValue join type) := by
  unfold Variable.observeValue
  split
  · exact frames
  · rename_i accepted
    have isOpen : info.auto = true := by
      by_contra declared
      exact accepted (by rw [eq_false_of_ne_true declared]; rfl)
    split
    · rename_i inferred
      refine ⟨frames.name, frames.auto, frames.opens, fun _ => isOpen, fun unresolved => ?_⟩
      exact absurd (inferred.symm.trans unresolved) Bool.noConfusion
    · exact frames.settle isOpen type

/-- What another view has observed is taken over only by a declaration that may be inferred. -/
theorem Frames.merge (frames : before.Frames info) (paired : other.inferred = true → info.auto = true) :
    before.Frames (info.merge join other) := by
  unfold Variable.merge
  split
  · exact frames
  · rename_i inferred
    split
    · exact frames.observeValue other.type
    · exact frames.settle (paired (by simpa using inferred)) other.type

theorem Frames.settleOpen (frames : before.Frames info) : before.Frames info.settleOpen := by
  unfold Variable.settleOpen
  split
  · rename_i isOpen
    exact frames.settle (Bool.and_eq_true_iff.mp isOpen).1 .object
  · exact frames

end Variable

/-- How inference may change the signature of a method. -/
structure Method.Frames (before after : Method) : Prop where
  name : after.name = before.name
  position : after.position = before.position
  params : List.Forall₂ Variable.Frames before.params after.params
  result : before.result.Frames after.result

/-- The variable that stands for an attribute. -/
def Attribute.variable (attr : Attribute) : Variable :=
  .declared attr.name attr.type

/-- How inference may change an attribute. -/
structure Attribute.Frames (before after : Attribute) : Prop where
  name : after.name = before.name
  position : after.position = before.position
  declared : before.type ≠ .autoType → after = before

/-- How inference may change a hierarchy. -/
structure Hierarchy.Frames (before after : Hierarchy) : Prop where
  alike : after.Alike before
  attributes : ∀ owner,
    List.Forall₂ Attribute.Frames (before.info owner).attributes (after.info owner).attributes
  methods : ∀ owner, List.Forall₂ Method.Frames (before.info owner).methods (after.info owner).methods

/-- How inference may change a scope tree. -/
structure ScopeTree.Frames (before after : ScopeTree) : Prop where
  nodes : after.nodes = before.nodes
  size : after.vars.size = before.vars.size
  slots : ∀ id, (before.variableAt id).Frames (after.variableAt id)

theorem ScopeTree.Frames.locals {before after : ScopeTree} (frames : before.Frames after) (scope : ScopeId) :
    after.locals scope = before.locals scope := by
  rw [ScopeTree.locals_of_nodes frames.nodes]

/-! ### Lists -/

section

variable {α β : Type} {related : α → β → Prop} {items : List α} {others : List β}

/-- Changing one of many keeps them related if it keeps that one related. -/
theorem forall₂_modify_right {change : β → β} {place : Nat} (all : List.Forall₂ related items others)
    (keeps : ∀ item other, items[place]? = some item → related item other → related item (change other)) :
    List.Forall₂ related items (others.modify place change) := by
  induction all generalizing place with
  | nil =>
      rw [List.modify_nil]
      exact .nil
  | @cons item other _ _ first later ih =>
      cases place with
      | zero =>
          rw [List.modify_zero_cons]
          exact .cons (keeps item other rfl first) later
      | succ place =>
          rw [List.modify_succ_cons]
          exact .cons first (ih keeps)

theorem exists_of_find? {p : α → Bool} {q : β → Bool} {other : β} (all : List.Forall₂ related items others)
    (same : ∀ item other, related item other → q other = p item) (found : others.find? q = some other) :
    ∃ item, items.find? p = some item ∧ related item other := by
  induction all with
  | nil => cases found
  | @cons item first _ _ isRelated _ ih =>
      rw [List.find?_cons] at found ⊢
      rw [same item first isRelated] at found
      split at found
      · cases found
        exact ⟨item, rfl, isRelated⟩
      · exact ih found

end

/-! ### Lookups -/

namespace Hierarchy.Frames

variable {before after : Hierarchy} {owner : TypeId} {name : String} {position : Position} {method : Method}

theorem exists_of_method? (frames : before.Frames after)
    (found : (after.info owner).method? name = some method) :
    ∃ old, (before.info owner).method? name = some old ∧ old.Frames method :=
  exists_of_find? (frames.methods owner) (fun _ _ related => by rw [related.name]) found

theorem exists_of_methodAt? (frames : before.Frames after)
    (found : (after.info owner).methodAt? name position = some method) :
    ∃ old, (before.info owner).methodAt? name position = some old ∧ old.Frames method := by
  obtain ⟨found, isHere⟩ := Option.filter_eq_some_iff.mp found
  obtain ⟨old, isOld, related⟩ := frames.exists_of_method? found
  exact ⟨old, Option.filter_eq_some_iff.mpr ⟨isOld, by rwa [← related.position]⟩, related⟩

/-- A type may be changed in its features only, as inference may change these. -/
theorem update (frames : before.Frames after) {change : TypeInfo → TypeInfo}
    (bare : ∀ info, (change info).bare = info.bare)
    (attributes : List.Forall₂ Attribute.Frames (before.info owner).attributes (change (after.info owner)).attributes)
    (methods : List.Forall₂ Method.Frames (before.info owner).methods (change (after.info owner)).methods) :
    before.Frames (after.update owner change) := by
  have changed (other : TypeId) : (after.update owner change).info other = after.info other ∨
      other = owner ∧ (after.update owner change).info other = change (after.info owner) := by
    rw [info_update_eq]
    split
    · rename_i reached
      exact Or.inr ⟨reached.1, reached.1 ▸ rfl⟩
    · exact Or.inl rfl
  refine ⟨.trans (.update _ owner bare) frames.alike, fun other => ?_, fun other => ?_⟩
  · rcases changed other with same | ⟨rfl, isChanged⟩
    · rw [same]
      exact frames.attributes other
    · rw [isChanged]
      exact attributes
  · rcases changed other with same | ⟨rfl, isChanged⟩
    · rw [same]
      exact frames.methods other
    · rw [isChanged]
      exact methods

end Hierarchy.Frames

/-! ### Lessons -/

/-- How inference may change a state. -/
structure InferenceState.Frames (before after : InferenceState) : Prop where
  hierarchy : before.hierarchy.Frames after.hierarchy
  tree : before.tree.Frames after.tree

namespace Inference

variable {start state : InferenceState} {owner : TypeId} {name : String}

theorem advance_frames {change : InferenceState → InferenceState} (frames : start.Frames state)
    (keeps : start.Frames (change state)) : start.Frames (advance change state).2 :=
  advance_preserves start.Frames frames fun _ => keeps

theorem moveCursor_frames {step : ScopeTree → Cursor → Except ScopeDrift Cursor}
    (frames : start.Frames state) : start.Frames (moveCursor step state).2 := by
  refine advance_frames frames ?_
  split <;> exact ⟨frames.hierarchy, frames.tree⟩

theorem updateVariable_frames (frames : start.Frames state) (id : VariableId)
    {learn : Hierarchy → Variable → Variable}
    (keeps : ∀ info, (start.tree.variableAt id).Frames info →
      (start.tree.variableAt id).Frames (learn state.hierarchy info)) :
    start.Frames (updateVariable id learn state).2 := by
  refine advance_frames frames ?_
  dsimp only
  split
  · exact frames
  · refine ⟨frames.hierarchy, frames.tree.nodes, (Array.size_modify ..).trans frames.tree.size, fun other => ?_⟩
    dsimp only
    rw [ScopeTree.variableAt_setVariable]
    split
    · rename_i changed
      obtain ⟨rfl, _⟩ := changed
      exact keeps _ (frames.tree.slots other)
    · exact frames.tree.slots other

theorem updateMethod_frames (distinct : start.hierarchy.Distinct) (frames : start.Frames state)
    {learn : Hierarchy → Method → Method}
    (keeps : ∀ before method : Method, (start.hierarchy.info owner).method? name = some before →
      before.Frames method → before.Frames (learn state.hierarchy method)) :
    start.Frames (updateMethod owner name learn state).2 := by
  refine advance_frames frames ?_
  dsimp only
  split
  · exact frames
  · rename_i method found
    split
    · exact frames
    · obtain ⟨before, isBefore, related⟩ := frames.hierarchy.exists_of_method? found
      have learned := keeps before method isBefore related
      refine ⟨frames.hierarchy.update (fun _ => rfl) (frames.hierarchy.attributes owner) ?_, frames.tree⟩
      refine List.forall₂_map_right_iff.mpr ?_
      have listed : List.Forall₂ (fun old new => old ∈ (start.hierarchy.info owner).methods ∧ old.Frames new)
          (start.hierarchy.info owner).methods (state.hierarchy.info owner).methods :=
        (List.forall₂_and_left _ _).mpr ⟨fun _ member => member, frames.hierarchy.methods owner⟩
      refine listed.imp fun old new ⟨member, isFrame⟩ => ?_
      split
      · rename_i isNamed
        have same : old = before := List.inj_on_of_nodup_map (distinct owner).methods member
          (List.mem_of_find?_eq_some isBefore)
          ((isFrame.name.symm.trans isNamed).trans (TypeInfo.method?_name isBefore).symm)
        exact same ▸ learned
      · exact isFrame

theorem updateParam_frames (distinct : start.hierarchy.Distinct) (frames : start.Frames state) (place : Nat)
    {learn : Hierarchy → Variable → Variable}
    (keeps : ∀ (method : Method) (before info : Variable),
      (start.hierarchy.info owner).method? name = some method → method.params[place]? = some before →
        before.Frames info → before.Frames (learn state.hierarchy info)) :
    start.Frames (updateParam owner name place learn state).2 := by
  refine updateMethod_frames distinct frames fun before method found related => ?_
  refine ⟨related.name, related.position, ?_, related.result⟩
  exact forall₂_modify_right related.params fun param info isParam => keeps before param info found isParam

/-- Whether a variable is open just where the parameter is that it stands for. -/
def PairedAt (start : InferenceState) (owner : TypeId) (name : String) (place : Nat) (id : VariableId) : Prop :=
  ∀ method param, (start.hierarchy.info owner).method? name = some method →
    method.params[place]? = some param → (start.tree.variableAt id).auto = param.auto

theorem mergeParam_frames (distinct : start.hierarchy.Distinct) (frames : start.Frames state) {place : Nat}
    {id : VariableId} (paired : PairedAt start owner name place id) :
    start.Frames (mergeParam owner name place id state).2 := by
  cases isKnown : ((state.hierarchy.info owner).method? name).bind fun method => method.params[place]? with
  | none =>
      rw [mergeParam_of_none id isKnown]
      exact frames
  | some known =>
      obtain ⟨method, isMethod, isParam⟩ := Option.bind_eq_some_iff.mp isKnown
      obtain ⟨before, isBefore, related⟩ := frames.hierarchy.exists_of_method? isMethod
      rw [mergeParam_of_some id isKnown]
      have first : start.Frames (updateVariable id (fun hierarchy info => info.merge hierarchy.union known)
          state).2 := by
        refine updateVariable_frames frames id fun info isFrame => isFrame.merge fun inferred => ?_
        have inRange := (List.getElem?_eq_some_iff.mp isParam).1
        rw [← related.params.length_eq] at inRange
        have ofParam : before.params[place].Frames known := by
          have all := (List.forall₂_iff_get.mp related.params).2 place inRange (related.params.length_eq ▸ inRange)
          rw [List.get_eq_getElem, List.get_eq_getElem, (List.getElem?_eq_some_iff.mp isParam).2] at all
          exact all
        rw [isFrame.auto, paired before _ isBefore (List.getElem?_eq_getElem inRange), ← ofParam.auto]
        exact ofParam.allowed inferred
      refine updateParam_frames distinct first place fun method param info isMethod isParam isFrame =>
        isFrame.merge fun inferred => ?_
      rw [isFrame.auto, ← paired method param isMethod isParam, ← (first.tree.slots id).auto]
      exact (first.tree.slots id).allowed inferred

/-- Only an attribute that is to be inferred takes the type of its variable. -/
theorem recordAttributes_frames (frames : start.Frames state) {scope : ScopeId}
    (paired : (start.hierarchy.info owner).attributes.map Attribute.variable <+: start.tree.slots scope) :
    start.Frames (recordAttributes owner scope state).2 := by
  have recorded {attributes others : List Attribute} {ids : List VariableId}
      (related : List.Forall₂ Attribute.Frames attributes others)
      (paired : attributes.map Attribute.variable <+: ids.map start.tree.variableAt) :
      List.Forall₂ Attribute.Frames attributes (withInferredTypes state.tree others ids) := by
    induction related generalizing ids with
    | nil => exact .nil
    | @cons attr _ _ _ isFrame related ih =>
        obtain _ | ⟨id, ids⟩ := ids
        · exact .cons isFrame related
        · obtain ⟨first, later⟩ := List.cons_prefix_cons.mp paired
          refine .cons ?_ (ih later)
          split
          · rename_i inferred
            have allowed := (frames.tree.slots id).allowed inferred
            rw [(frames.tree.slots id).auto, ← first] at allowed
            exact ⟨isFrame.name, isFrame.position, fun declared => absurd (eq_of_beq allowed) declared⟩
          · exact isFrame
  refine advance_frames frames ?_
  dsimp only
  split
  · exact frames
  · rw [frames.tree.locals]
    exact ⟨frames.hierarchy.update (fun _ => rfl) (recorded (frames.hierarchy.attributes owner) paired)
      (frames.hierarchy.methods owner), frames.tree⟩

/-! ### Visits -/

section

variable (distinct : start.hierarchy.Distinct)
include distinct

/-- Inside a feature, any types may be observed, but no parameters are merged. -/
theorem frames_invariant : Invariant (fun _ => True) (fun _ => False)
    (fun marks state => Guided marks state ∧ start.Frames state) where
  builtins := ⟨trivial, trivial, trivial, trivial, trivial⟩
  move _ _ _ ready := ⟨(Runs.move Runs.done).guided ready.1, moveCursor_frames ready.2⟩
  learn lesson _ _ fits ready := by
    refine ⟨(Runs.learn lesson Runs.done).guided ready.1, ?_⟩
    cases lesson with
    | hint id type => exact updateVariable_frames ready.2 id fun _ isFrame => isFrame.observeHint type
    | value id type => exact updateVariable_frames ready.2 id fun _ isFrame => isFrame.observeValue type
    | argument owner name place type =>
        exact updateParam_frames distinct ready.2 place fun _ _ _ _ _ isFrame => isFrame.observeValue type
    | result owner name type =>
        exact updateMethod_frames distinct ready.2 fun _ _ _ related =>
          ⟨related.name, related.position, related.params, related.result.observeValue type⟩
    | merge | record => exact fits.elim
  noDrift _ _ ready := ready.1.noDrift
  gives _ _ _ := ⟨⟨trivial, trivial, trivial, trivial, trivial⟩, fun _ _ _ _ => trivial, fun _ _ _ => trivial,
    fun _ _ _ _ _ _ _ _ => trivial, fun _ _ _ _ _ _ _ _ _ => trivial⟩
  slot _ _ _ _ _ _ := trivial

theorem mergeParams_frames (state : InferenceState) {place : Nat} {ids : List VariableId} {rest : List ScopeMark}
    (paired : ∀ count id, ids[count]? = some id → PairedAt start owner name (place + count) id)
    (ready : Guided rest state ∧ start.Frames state) :
    Guided rest (mergeParams owner name place ids state).2 ∧
      start.Frames (mergeParams owner name place ids state).2 := by
  induction ids generalizing place state with
  | nil => exact ready
  | cons id ids ih =>
      refine ih (mergeParam owner name place id state).2 (fun count other isOther => ?_) ⟨?_, ?_⟩
      · rw [Nat.add_assoc, Nat.add_comm 1]
        exact paired (count + 1) other isOther
      · exact (Runs.learn (.merge owner name place id) Runs.done).guided ready.1
      · exact mergeParam_frames distinct ready.2 (paired 0 id rfl)

end

/-- Whether the variables that a visit merges or records are what they stand for, as it is declared. -/
def Visit.Paired (hierarchy : Hierarchy) (tree : ScopeTree) : Visit → Prop
  | .feature owner _ scope (.method decl) =>
      ∀ method, (hierarchy.info owner).methodAt? decl.name.name decl.name.position = some method →
        (tree.slots scope).drop 1 = method.params
  | .feature _ _ _ (.attribute _) => True
  | .record owner scope => (hierarchy.info owner).attributes.map Attribute.variable <+: tree.slots scope

theorem inferMethod_of_none {scope : ScopeId} {decl : MethodDecl}
    (unknown : (state.hierarchy.info owner).methodAt? decl.name.name decl.name.position = none) :
    inferMethod owner scope decl state =
      let result := (state.hierarchy.find? decl.result.name).getD .error
      let inferred := infer owner (result.resolveIn owner).expected? decl.body state
      ({ decl with body := inferred.1.1 }, inferred.2) := by
  unfold inferMethod
  simp only [bind, StateT.bind, get, getThe, MonadStateOf.get, StateT.get, pure]
  rw [unknown]
  rfl

theorem inferMethod_of_some {scope : ScopeId} {decl : MethodDecl} {known : Method}
    (isKnown : (state.hierarchy.info owner).methodAt? decl.name.name decl.name.position = some known) :
    inferMethod owner scope decl state =
      let params := (state.tree.locals scope).drop 1
      let merged := (mergeParams owner decl.name.name 0 params state).2
      let inferred := infer owner (known.result.type.resolveIn owner).expected? decl.body merged
      let again := (mergeParams owner decl.name.name 0 params inferred.2).2
      ({ decl with body := inferred.1.1 }, (observeResult owner decl.name.name inferred.1.2 again).2) := by
  unfold inferMethod
  simp only [bind, StateT.bind, get, getThe, MonadStateOf.get, StateT.get, pure]
  rw [isKnown]
  rfl

theorem inferMethod_frames (distinct : start.hierarchy.Distinct) {scope : ScopeId} {decl : MethodDecl}
    (paired : ∀ method, (start.hierarchy.info owner).methodAt? decl.name.name decl.name.position = some method →
      (start.tree.slots scope).drop 1 = method.params)
    (guided : Guided (Nest.marksAll decl.body.nests) state) (frames : start.Frames state) :
    start.Frames (inferMethod owner scope decl state).2 := by
  have kept := frames_invariant distinct
  rw [← List.append_nil (Nest.marksAll _)] at guided
  have hinting : Note.Hinting (fun _ => True) decl.body.notes := fun _ _ _ _ _ => trivial
  have body (hint : Option TypeId) : Consumes _ _ _ (infer owner hint decl.body) :=
    kept.typed_infer trivial (fun _ _ => trivial) decl.body hinting
  cases found : (state.hierarchy.info owner).methodAt? decl.name.name decl.name.position with
  | none =>
      rw [inferMethod_of_none found]
      exact (body _ [] state ⟨guided, frames⟩).1.2
  | some known =>
      obtain ⟨method, isMethod, _⟩ := frames.hierarchy.exists_of_methodAt? found
      have arePaired : ∀ count id, ((start.tree.locals scope).drop 1)[count]? = some id →
          PairedAt start owner decl.name.name (0 + count) id := by
        intro count id isId other param isOther isParam
        rw [(Option.filter_eq_some_iff.mp isMethod).1] at isOther
        cases isOther
        have isSlot := congrArg (Option.map start.tree.variableAt) isId
        rw [← List.getElem?_map, List.map_drop, show (start.tree.locals scope).map start.tree.variableAt =
          start.tree.slots scope from rfl, paired method isMethod, ← Nat.zero_add count, isParam] at isSlot
        exact congrArg Variable.auto (Option.some.inj isSlot).symm
      rw [inferMethod_of_some found, frames.tree.locals]
      have first := mergeParams_frames distinct _ arePaired ⟨guided, frames⟩
      have inside := body (known.result.type.resolveIn owner).expected? [] _ first
      have second := mergeParams_frames distinct _ arePaired inside.1
      exact (kept.learn (.result owner decl.name.name _) [] _ trivial second).2

/-- A visit that merges and records like with like leaves alone what is declared. -/
theorem visit_frames {tree : ScopeTree} {visit : Visit} (distinct : start.hierarchy.Distinct)
    (paired : visit.Paired start.hierarchy start.tree) (awaits : visit.Awaits tree state) (frames : start.Frames state) :
    start.Frames (visit.after state) := by
  rcases visit with ⟨owner, around, scope, decl | decl⟩ | ⟨owner, scope⟩
  · have guided : Guided (Nest.marksAll (Feature.attribute decl).nests ++ []) state := by
      rw [List.append_nil]
      exact Facing.guided awaits
    have kept : Consumes _ _ _ (inferAttribute owner around decl) :=
      (frames_invariant distinct).typed_inferAttribute trivial around decl (fun _ _ _ _ _ => trivial)
    exact (kept [] state ⟨guided, frames⟩).1.2
  · exact inferMethod_frames distinct paired (Facing.guided awaits) frames
  · exact recordAttributes_frames frames paired

end Inference

end CoolLang
