import CoolLang.Proofs.Inference.Agreement
import CoolLang.Proofs.Inference.Frame

/-!
Where a walk learns nothing, what inference knows of a declaration is the same in all places: an attribute has
the type of its variable (`Inference.recorded_attributes`), a parameter that of the variable in its method
(`Variable.type_eq_of_merged`).
-/

namespace CoolLang

/-! ### Merging -/

namespace Variable

variable {info other : Variable} {hierarchy : Hierarchy} {join : TypeId → TypeId → TypeId}

/-- What another declaration has observed has been observed here. -/
theorem join_of_merged (isOpen : info.auto = true) (inferred : other.inferred = true)
    (concrete : other.type.isConcrete = true) (merged : info.merge join other = info) :
    join info.type other.type = info.type := by
  rw [merge, inferred] at merged
  simp only [Bool.not_true, Bool.false_eq_true, if_false] at merged
  split at merged
  · exact (inferred_of_observed isOpen concrete merged).2
  · rename_i unresolved
    exact absurd (congrArg Variable.inferred merged).symm unresolved

/-- Two views of one open declaration that have nothing to learn from one another know the same type. -/
theorem type_eq_of_merged (rooted : hierarchy.Rooted) (placed : info.Placed hierarchy)
    (placed' : other.Placed hierarchy) (isOpen : info.auto = true) (isOpen' : other.auto = true)
    (inferred : info.inferred = true) (inferred' : other.inferred = true)
    (merged : info.merge hierarchy.union other = info) (merged' : other.merge hierarchy.union info = other) :
    info.type = other.type := by
  have isClass := placed.isClass inferred
  have isClass' := placed'.isClass inferred'
  have above := (rooted.union_mem isClass isClass').2
  rw [join_of_merged isOpen inferred' isClass'.concrete merged] at above
  have below := (rooted.union_mem isClass' isClass).2
  rw [join_of_merged isOpen' inferred isClass.concrete merged'] at below
  exact rooted.ancestors_antisymm isClass' above below

end Variable

namespace Inference

variable {state : InferenceState} {owner : TypeId} {name : String} {method : Method}

theorem mergeParam_quiet {place : Nat} {id : VariableId} (noDrift : state.drift = none)
    (quiet : Quiet (mergeParam owner name place id state).2)
    (known : (state.hierarchy.info owner).method? name = some method) {param : Variable}
    (isParam : method.params[place]? = some param) :
    (state.tree.variableAt id).merge state.hierarchy.union param = state.tree.variableAt id ∧
      param.merge state.hierarchy.union (state.tree.variableAt id) = param := by
  have isKnown : (((state.hierarchy.info owner).method? name).bind fun method => method.params[place]?) =
      some param := by
    rw [known]
    exact isParam
  rw [mergeParam_of_some id isKnown] at quiet
  dsimp only at quiet
  generalize isNext : (updateVariable id (fun hierarchy info => info.merge hierarchy.union param) state).2 = next
    at quiet
  have quiet' : Quiet next := by
    have same := (updateMethod_learned owner name _).eq_of_quiet quiet
    exact same ▸ quiet
  have merged := updateVariable_quiet noDrift (isNext ▸ quiet')
  obtain rfl : next = state := isNext ▸ (updateVariable_learned id _).eq_of_quiet (isNext ▸ quiet')
  exact ⟨merged, updateParam_quiet noDrift quiet known isParam⟩

theorem mergeParams_quiet {start : Nat} {ids : List VariableId} (noDrift : state.drift = none)
    (quiet : Quiet (mergeParams owner name start ids state).2)
    (known : (state.hierarchy.info owner).method? name = some method) {count : Nat} {id : VariableId}
    (isId : ids[count]? = some id) {param : Variable} (isParam : method.params[start + count]? = some param) :
    (state.tree.variableAt id).merge state.hierarchy.union param = state.tree.variableAt id ∧
      param.merge state.hierarchy.union (state.tree.variableAt id) = param := by
  induction ids generalizing start count with
  | nil => cases isId
  | cons first ids ih =>
      have later := (mergeParams_runs owner name (start + 1) ids (mergeParam owner name start first state).2).1
      have quiet' : Quiet (mergeParam owner name start first state).2 := (later.quiet quiet).1
      cases count with
      | zero =>
          obtain rfl := Option.some.inj isId
          exact mergeParam_quiet noDrift quiet' known isParam
      | succ count =>
          have same := (mergeParam_learned owner name start first).eq_of_quiet quiet'
          have quiet : Quiet (mergeParams owner name (start + 1) ids (mergeParam owner name start first state).2).2 :=
            quiet
          rw [same] at quiet
          exact ih quiet isId (by rwa [Nat.add_assoc, Nat.add_comm 1])

/-- A method of which nothing is learned has merged its parameters before without learning from them. -/
theorem inferMethod_quiet {scope : ScopeId} {decl : MethodDecl}
    (known : (state.hierarchy.info owner).methodAt? decl.name.name decl.name.position = some method)
    (quiet : Quiet (inferMethod owner scope decl state).2) :
    Quiet (mergeParams owner decl.name.name 0 ((state.tree.locals scope).drop 1) state).2 := by
  rw [inferMethod_of_some known] at quiet
  dsimp only at quiet
  generalize (state.tree.locals scope).drop 1 = params at quiet ⊢
  generalize (mergeParams owner decl.name.name 0 params state).2 = merged at quiet ⊢
  have inside := (infer_runs owner (method.result.type.resolveIn owner).expected? decl.body merged).1
  generalize infer owner (method.result.type.resolveIn owner).expected? decl.body merged = inferred at quiet inside
  have again := (mergeParams_runs owner decl.name.name 0 params inferred.2).1
  have last : Runs [] (mergeParams owner decl.name.name 0 params inferred.2).2
      (observeResult owner decl.name.name inferred.1.2 (mergeParams owner decl.name.name 0 params inferred.2).2).2 :=
    .learn (.result owner decl.name.name inferred.1.2) .done
  exact (inside.quiet (again.quiet (last.quiet quiet).1).1).1

/-! ### Recording -/

theorem recordAttributes_quiet {scope : ScopeId} (noDrift : state.drift = none)
    (quiet : Quiet (recordAttributes owner scope state).2) :
    withInferredTypes state.tree (state.hierarchy.info owner).attributes (state.tree.locals scope) =
      (state.hierarchy.info owner).attributes := by
  rw [recordAttributes, advance_of_none noDrift] at quiet
  dsimp only at quiet
  split at quiet
  · assumption
  · cases quiet.1

/-- What is known of an attribute and of its variable, given how the attribute is declared. -/
structure Records (declared attr : Attribute) (info : Variable) : Prop where
  name : info.name = attr.name
  frames : declared.Frames attr
  auto : info.auto = true ↔ declared.type = .autoType
  type : attr.type = info.type

/-- Attributes that have been recorded have the types of their variables. -/
theorem recorded_attributes {start : ScopeTree} {declared attributes : List Attribute} {ids : List VariableId}
    (frames : start.Frames state.tree) (closed : state.tree.Consistent True)
    (related : List.Forall₂ Attribute.Frames declared attributes)
    (paired : declared.map Attribute.variable <+: ids.map start.variableAt)
    (recorded : withInferredTypes state.tree attributes ids = attributes) :
    ∃ front back, ids = front ++ back ∧ List.Forall₂ (fun attr id =>
      ∃ before ∈ declared, Records before attr (state.tree.variableAt id)) attributes front := by
  induction related generalizing ids with
  | nil => exact ⟨[], ids, rfl, .nil⟩
  | @cons before attr declared attributes isFrame related ih =>
      obtain _ | ⟨id, ids⟩ := ids
      · exact absurd paired.length_le (Nat.not_succ_le_zero _)
      obtain ⟨first, later⟩ := List.cons_prefix_cons.mp paired
      obtain ⟨ofFirst, ofLater⟩ := List.cons.inj recorded
      obtain ⟨front, back, rfl, records⟩ := ih later ofLater
      have slot := frames.slots id
      have auto : (state.tree.variableAt id).auto = true ↔ before.type = .autoType := by
        rw [slot.auto, ← first]
        exact beq_iff_eq
      refine ⟨id :: front, back, rfl, .cons ⟨before, List.mem_cons_self, ?_, isFrame, auto, ?_⟩
        (records.imp fun _ _ ⟨other, isOther, record⟩ => ⟨other, List.mem_cons_of_mem _ isOther, record⟩)⟩
      · rw [slot.name, ← first, isFrame.name]
        rfl
      · cases inferred : (state.tree.variableAt id).inferred with
        | true =>
            rw [if_pos inferred] at ofFirst
            rw [← ofFirst]
        | false =>
            have written : before.type ≠ .autoType := fun isAuto => by
              have isOpen := (closed.variableAt id).closed
              rw [Variable.isOpen, auto.mpr isAuto, inferred] at isOpen
              cases isOpen
            rw [isFrame.declared written, slot.waits inferred, ← first]
            rfl

/-! ### Visits -/

theorem Visit.runs (visit : Visit) (state : InferenceState) : ∃ marks, Runs marks state (visit.after state) := by
  rcases visit with ⟨owner, around, scope, decl | decl⟩ | ⟨owner, scope⟩
  · exact ⟨_, (inferAttribute_runs owner around decl state).1⟩
  · exact ⟨_, (inferMethod_runs owner scope decl state).1⟩
  · exact ⟨[], .learn (.record owner scope) .done⟩

/-- A walk that learns nothing learns nothing in any of its visits. -/
theorem walk_visits_quiet {program : Program} {types : ClassTypes}
    (outline : state.tree.skeleton = Nest.outline (program.nests types))
    (quiet : Quiet (walk types program state).2) :
    ∀ visit ∈ visits program types state.tree, ∃ reached : InferenceState,
      reached.hierarchy = state.hierarchy ∧ reached.tree = state.tree ∧ reached.drift = none ∧
        Quiet (visit.after reached) := by
  let Keeps (made : List Visit) (before after : InferenceState) : Prop := Quiet after → Quiet before ∧
    after.hierarchy = before.hierarchy ∧ after.tree = before.tree ∧ ∀ visit ∈ made, ∃ reached : InferenceState,
      reached.hierarchy = before.hierarchy ∧ reached.tree = before.tree ∧ reached.drift = none ∧
        Quiet (visit.after reached)
  have composes : Composes Keeps := by
    refine ⟨fun _ isQuiet => ⟨isQuiet, rfl, rfl, nofun⟩, fun {_ _ _ _ _} one two isQuiet => ?_⟩
    obtain ⟨between, hierarchy', tree', later⟩ := two isQuiet
    obtain ⟨before, hierarchy, tree, first⟩ := one between
    rw [hierarchy, tree] at later
    exact ⟨before, hierarchy'.trans hierarchy, tree'.trans tree, List.forall_mem_append.mpr ⟨first, later⟩⟩
  obtain ⟨noDrift, _⟩ := walk_quiet quiet
  have walked : Keeps (visits program types state.tree) _ (walk types program state).2 :=
    walk_visits (fun _ _ isQuiet => ⟨isQuiet, rfl, rfl, nofun⟩) outline noDrift quiet.2
      fun visit _ reached _ isQuiet => by
        obtain ⟨_, runs⟩ := visit.runs reached
        obtain ⟨before, hierarchy, tree⟩ := runs.quiet isQuiet
        exact ⟨before, hierarchy, tree,
          List.forall_mem_singleton.mpr ⟨reached, rfl, rfl, before.2, isQuiet⟩⟩
  exact (walked quiet).2.2.2

/-! ### Names -/

/-- What is paired with one of many that are told apart by their names is found by that name. -/
theorem exists_find?_of_forall₂ {α β κ : Type} [BEq κ] [LawfulBEq κ] {name : α → κ} {name' : β → κ}
    {related : α → β → Prop}
    {items : List α} {others : List β} (all : List.Forall₂ related items others)
    (same : ∀ item other, related item other → name' other = name item) (distinct : (items.map name).Nodup)
    {item : α} (member : item ∈ items) :
    ∃ other, others.find? (fun other => name' other == name item) = some other ∧ related item other := by
  induction all with
  | nil => cases member
  | @cons first other items others isRelated _ ih =>
      obtain ⟨absent, distinct⟩ := List.nodup_cons.mp distinct
      rcases List.mem_cons.mp member with rfl | later
      · exact ⟨other, List.find?_cons_of_pos (beq_iff_eq.mpr (same _ _ isRelated)), isRelated⟩
      · obtain ⟨found, isFound, isRelated'⟩ := ih distinct later
        have apart : (name' other == name item) = false := beq_false_of_ne fun isName =>
          absent ((same _ _ isRelated).symm.trans isName ▸ List.mem_map_of_mem later)
        exact ⟨found, by rw [List.find?_cons, apart, isFound], isRelated'⟩

end Inference

end CoolLang
