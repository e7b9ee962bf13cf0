import CoolLang.Proofs.Analysis.Checked
import CoolLang.Proofs.Analysis.Stability
import CoolLang.Proofs.Inference.Ascent

/-!
How inference ends. Declarations move upward only from one walk to the next, and a walk that has learned
anything leaves less to be learned, so that both phases end by themselves. What they have left then is left
as it is by any inference after them (`Analysis.infer_converges`).
-/

namespace CoolLang

namespace Inference

open InferenceState

variable {base : Hierarchy} {classes : List (TypeId × ScopeId)} {types : ClassTypes}
  {left : Program × InferenceState}

/-- What holds between two walks. -/
structure Standing (base : Hierarchy) (types : ClassTypes) (left : Program × InferenceState) : Prop where
  sound : left.2.Sound base
  noDrift : left.2.drift = none
  hinting : Note.Hinting (TypeId.Absolute base.types.size) (left.1.notes types)
  outline : left.2.tree.skeleton = Nest.outline (left.1.nests types)

/-- The classes that are to be walked over, with the scopes that a tree has for them. -/
structure Enrolled (base : Hierarchy) (types : ClassTypes) (tree : ScopeTree)
    (classes : List (TypeId × ScopeId)) : Prop where
  rooted : base.Rooted
  areClasses : ∀ type, some type ∈ types → base.IsClass type
  scopes : classes = (types.filterMap id).zip (tree.children ScopeTree.root)
  once : (classes.map Prod.fst).Nodup

theorem Enrolled.of_nodes {one two : ScopeTree} (enrolled : Enrolled base types one classes)
    (nodes : two.nodes = one.nodes) : Enrolled base types two classes := by
  refine ⟨enrolled.rooted, enrolled.areClasses, ?_, enrolled.once⟩
  rw [enrolled.scopes, ScopeTree.children_of_nodes nodes]

/-- What one walk comes to. -/
structure Ascends (base : Hierarchy) (types : ClassTypes) (classes : List (TypeId × ScopeId))
    (left right : Program × InferenceState) : Prop where
  standing : Standing base types right
  advances : left.2.Advances base right.2
  shrinks : right.2.changed = true → right.2.measure base classes < left.2.measure base classes

theorem walk_ascends (enrolled : Enrolled base types left.2.tree classes)
    (standing : Standing base types left) : Ascends base types classes left (nextWalk types left) := by
  obtain ⟨program, state⟩ := left
  have begun : (beginWalk state).2 = { state with cursor := .initial, changed := false } :=
    beginWalk_of_none standing.noDrift
  have sound : (beginWalk state).2.Sound base := standing.sound.of_same (by rw [begun]) (by rw [begun])
  obtain ⟨same, noDrift, nodes, _⟩ := walk_spec standing.outline standing.noDrift
  have fits := (Nest.outline_at (program.nests types)).1
  rw [← show state.tree.skeleton = Nest.outline (program.nests types) from standing.outline,
    Nest.at_skeleton, Nest.At] at fits
  have atStart : Between base classes (beginWalk state).2 0 (beginWalk state).2 :=
    ⟨.refl enrolled.rooted sound, by rw [begun]; exact standing.noDrift, #[], by rw [begun]; rfl⟩
  obtain ⟨⟨place, between⟩, notes⟩ := inferClasses_between enrolled.rooted sound enrolled.once
    enrolled.areClasses (fun pair member => by rwa [enrolled.scopes])
    (show (_ : List ScopeId).drop 0 = state.tree.children ScopeTree.root by rw [begun]; rfl)
    (by rw [begun]; exact fits) standing.hinting atStart
  have ended : (walk types program state).2 = (inferClasses program.classes types (beginWalk state).2).2 :=
    walk_last noDrift
  rw [← ended] at between
  refine ⟨⟨between.progress.sound, noDrift, notes.hinting, ?_⟩, ?_, fun changed => ?_⟩
  · exact (ScopeTree.skeleton_of_nodes nodes).trans (standing.outline.trans
      (by rw [← Program.nests_of_untyped same]; rfl))
  · exact (Advances.of_same enrolled.rooted standing.sound (by rw [begun]) (by rw [begun])).trans
      enrolled.rooted standing.sound between.progress.advances
  · rcases between.progress.shrinks with ⟨_, _, unchanged⟩ | less
    · rw [begun] at unchanged
      exact absurd (changed.symm.trans unchanged) Bool.noConfusion
    · have same : (beginWalk state).2.measure base classes = state.measure base classes :=
        measure_congr base classes (by rw [begun]) (by rw [begun])
      exact same ▸ less

/-! ### Settling -/

theorem variableAt_settleOpen (tree : ScopeTree) (id : VariableId) :
    (tree.mapVariables Variable.settleOpen).variableAt id = (tree.variableAt id).settleOpen := by
  rw [ScopeTree.variableAt, ScopeTree.mapVariables, Array.getElem?_map, ScopeTree.variableAt]
  cases tree.vars[id]? <;> rfl

/-- Settling everything that is open moves no declaration that is resolved. -/
theorem settleOpen_ascends (rooted : base.Rooted) (standing : Standing base types left) :
    Standing base types (left.1, (settleOpen left.2).2) ∧ left.2.Advances base (settleOpen left.2).2 := by
  obtain ⟨program, state⟩ := left
  obtain ⟨sound, noDrift, hinting, outline⟩ := standing
  dsimp only at sound noDrift hinting outline ⊢
  have signatures : InferenceState.Sound base { state with hierarchy := state.hierarchy.settleOpen } ∧
      state.Advances base { state with hierarchy := state.hierarchy.settleOpen } := by
    refine List.foldlRecOn (motive := fun hierarchy =>
      InferenceState.Sound base { state with hierarchy := hierarchy } ∧
        state.Advances base { state with hierarchy := hierarchy }) _ _ ⟨sound, .refl rooted sound⟩ ?_
    rintro hierarchy ⟨isSound, advances⟩ owner _
    obtain ⟨isSound', advances'⟩ := settleType_advances rooted isSound owner
    exact ⟨isSound', advances.trans rooted sound advances'⟩
  obtain ⟨isSound, advances⟩ := signatures
  have learns (id : VariableId) := Variable.settleOpen_learns rooted (sound.slot rooted.positive id)
  have settled := settleOpen_consistent noDrift sound.consistent
  rw [settleOpen_of_none noDrift] at settled ⊢
  have consistent : InferenceState.Consistent False { state with
      hierarchy := state.hierarchy.settleOpen
      tree := state.tree.mapVariables Variable.settleOpen } :=
    ⟨fun type => (settled.hierarchy type).mono fun impossible => impossible.1.elim,
      fun info member => (settled.tree info member).mono fun impossible => impossible.elim⟩
  have known : (state.tree.mapVariables Variable.settleOpen).Known base.types.size := by
    refine ⟨fun info member => ?_, fun scope id member => ?_⟩
    · obtain ⟨id, isInfo⟩ := Array.mem_iff_getElem?.mp member
      have same : (state.tree.mapVariables Variable.settleOpen).variableAt id = info := by
        rw [ScopeTree.variableAt, isInfo]
        rfl
      rw [← same, variableAt_settleOpen]
      exact (learns id).placed.known
    · rw [ScopeTree.mapVariables, Array.size_map]
      exact sound.known.locals scope id member
  refine ⟨⟨⟨isSound.alike, consistent, isSound.valid, isSound.distinct, known⟩, noDrift, hinting, outline⟩,
    advances.alike, rfl, Array.size_map, fun id => ?_, advances.methods, advances.attributes⟩
  dsimp only
  rw [variableAt_settleOpen]
  exact (learns id).advances

/-! ### Passes -/

/-- What inference does from one walk to the next: it walks, or it settles what is open. -/
inductive Passes (types : ClassTypes) : Program × InferenceState → Program × InferenceState → Prop where
  | walk (left : Program × InferenceState) : Passes types left (nextWalk types left)
  | settle (left : Program × InferenceState) : Passes types left (left.1, (settleOpen left.2).2)

theorem Passes.ascends {right : Program × InferenceState} (passes : Passes types left right)
    (enrolled : Enrolled base types left.2.tree classes) (standing : Standing base types left) :
    Enrolled base types right.2.tree classes ∧ Standing base types right ∧
      left.2.Advances base right.2 := by
  cases passes with
  | walk =>
      have ascends := walk_ascends enrolled standing
      exact ⟨enrolled.of_nodes ascends.advances.nodes, ascends.standing, ascends.advances⟩
  | settle =>
      obtain ⟨settled, advances⟩ := settleOpen_ascends enrolled.rooted standing
      exact ⟨enrolled.of_nodes advances.nodes, settled, advances⟩

/-- However many walks there are between two states, declarations have moved upward at most. -/
theorem ascends_of_passes {right : Program × InferenceState}
    (passes : Relation.ReflTransGen (Passes types) left right)
    (enrolled : Enrolled base types left.2.tree classes) (standing : Standing base types left) :
    Enrolled base types right.2.tree classes ∧ Standing base types right ∧
      left.2.Advances base right.2 := by
  induction passes with
  | refl => exact ⟨enrolled, standing, .refl enrolled.rooted standing.sound⟩
  | tail _ last ih =>
      obtain ⟨enrolled', standing', advances⟩ := ih
      obtain ⟨enrolled'', standing'', advances'⟩ := last.ascends enrolled' standing'
      exact ⟨enrolled'', standing'', advances.trans enrolled.rooted standing.sound advances'⟩

theorem walkUntilStable_passes (types : ClassTypes) (more : Nat) (program : Program) (state : InferenceState) :
    Relation.ReflTransGen (Passes types) (program, state)
      ((walkUntilStable types more program state).1.1, (walkUntilStable types more program state).2) := by
  induction more generalizing program state with
  | zero => exact .single (.walk (program, state))
  | succ more ih =>
      rw [walkUntilStable_succ]
      dsimp only
      split
      · exact .head (.walk (program, state)) (ih _ _)
      · exact .single (.walk (program, state))

/-! ### Bounds -/

/-- With as many walks as the measure allows, a phase ends by itself, and any more are not made. -/
theorem walkUntilStable_ends {more : Nat} (enrolled : Enrolled base types left.2.tree classes)
    (standing : Standing base types left) (enough : left.2.measure base classes ≤ more) :
    (walkUntilStable types more left.1 left.2).2.changed = false ∧
      ∀ other, left.2.measure base classes ≤ other →
        walkUntilStable types other left.1 left.2 = walkUntilStable types more left.1 left.2 := by
  induction more generalizing left with
  | zero =>
      obtain ⟨standing', advances, shrinks⟩ := walk_ascends enrolled standing
      have unchanged : (walk types left.1 left.2).2.changed = false := by
        by_contra changed
        exact absurd (shrinks (eq_true_of_ne_false changed)) (by omega)
      refine ⟨unchanged, fun other _ => ?_⟩
      cases other with
      | zero => rfl
      | succ other =>
          rw [walkUntilStable_succ]
          dsimp only
          rw [unchanged]
          rfl
  | succ more ih =>
      obtain ⟨standing', advances, shrinks⟩ := walk_ascends enrolled standing
      rw [walkUntilStable_succ]
      dsimp only
      cases changed : (walk types left.1 left.2).2.changed with
      | false =>
          refine ⟨changed, fun other _ => ?_⟩
          cases other with
          | zero => rfl
          | succ other =>
              rw [walkUntilStable_succ]
              dsimp only
              rw [changed]
              rfl
      | true =>
          have less := shrinks changed
          have noDrift : (walk types left.1 left.2).2.drift = none := standing'.noDrift
          obtain ⟨stopped, same⟩ := ih (enrolled.of_nodes advances.nodes) standing' (by omega)
          rw [noDrift]
          refine ⟨stopped, fun other enough' => ?_⟩
          obtain ⟨other, rfl⟩ := Nat.exists_eq_succ_of_ne_zero (Nat.ne_of_gt (by omega : 0 < other))
          rw [walkUntilStable_succ]
          dsimp only
          rw [changed, noDrift]
          have again := same other (by omega)
          rw [show walkUntilStable types other (walk types left.1 left.2).1 (walk types left.1 left.2).2 =
            walkUntilStable types more (walk types left.1 left.2).1 (walk types left.1 left.2).2 from again]

/-- With enough walks both phases end by themselves, and inference comes to the same however many more it
might make. -/
theorem bothPhases_ends (enrolled : Enrolled base types left.2.tree classes)
    (standing : Standing base types left) :
    ∃ bound, ∀ limit, bound ≤ limit →
      (walkUntilStable types (limit - 1) left.1 left.2).2.changed = false ∧
      (bothPhases types limit left.1 left.2).2.changed = false ∧
      bothPhases types limit left.1 left.2 = bothPhases types bound left.1 left.2 := by
  obtain ⟨stopped, same⟩ := walkUntilStable_ends enrolled standing (Nat.le_refl _)
  obtain ⟨enrolled', standing', _⟩ := ascends_of_passes
    ((walkUntilStable_passes types (left.2.measure base classes) left.1 left.2).tail (.settle _)) enrolled standing
  obtain ⟨stopped', same'⟩ := walkUntilStable_ends enrolled' standing' (Nat.le_refl _)
  generalize first : walkUntilStable types (left.2.measure base classes) left.1 left.2 = observed at *
  generalize second : (settleOpen observed.2).2.measure base classes = further at *
  have phases (limit : Nat) (one : left.2.measure base classes ≤ limit - 1) (two : further ≤ limit - 1) :
      bothPhases types limit left.1 left.2 =
        let followed := walkUntilStable types further observed.1.1 (settleOpen observed.2).2
        ((followed.1.1, observed.1.2 + followed.1.2), followed.2) := by
    rw [← same' (limit - 1) two, ← same (limit - 1) one]
    rfl
  refine ⟨max (left.2.measure base classes) further + 1, fun limit enough => ?_⟩
  have one : left.2.measure base classes ≤ limit - 1 := by omega
  have two : further ≤ limit - 1 := by omega
  rw [same (limit - 1) one, phases limit one two, phases _ (by omega) (by omega)]
  exact ⟨stopped, stopped', rfl⟩

end Inference

/-! ### Where nothing is open -/

namespace Variable

theorem settleOpen_of_closed {info : Variable} (closed : info.isOpen = false) : info.settleOpen = info := by
  rw [settleOpen, closed]
  rfl

end Variable

theorem Method.settleOpen_of_consistent {method : Method} (consistent : method.Consistent True) :
    method.settleOpen = method := by
  have params : method.params.map Variable.settleOpen = method.params := by
    conv_rhs => rw [← List.map_id method.params]
    exact List.map_congr_left fun param member =>
      Variable.settleOpen_of_closed (consistent.params param member).closed
  rw [settleOpen, params, Variable.settleOpen_of_closed consistent.result.closed]

theorem Hierarchy.settleOpen_of_consistent {hierarchy : Hierarchy} (consistent : hierarchy.Consistent True) :
    hierarchy.settleOpen = hierarchy := by
  unfold settleOpen
  refine List.foldlRecOn (motive := (· = hierarchy)) _ _ rfl ?_
  rintro current isCurrent owner member
  rw [isCurrent]
  have settled : (hierarchy.info owner).Consistent True :=
    (consistent owner).mono fun _ => ⟨trivial, (List.mem_filter.mp member).2⟩
  refine update_eq_self ?_
  have attributes : (hierarchy.info owner).attributes.map Attribute.settleOpen =
      (hierarchy.info owner).attributes := by
    conv_rhs => rw [← List.map_id (hierarchy.info owner).attributes]
    refine List.map_congr_left fun attr isAttribute => ?_
    rw [Attribute.settleOpen, if_neg fun isAuto => settled.attributes attr isAttribute isAuto trivial]
    rfl
  have methods : (hierarchy.info owner).methods.map Method.settleOpen = (hierarchy.info owner).methods := by
    conv_rhs => rw [← List.map_id (hierarchy.info owner).methods]
    exact List.map_congr_left fun method isMethod =>
      Method.settleOpen_of_consistent (settled.methods method isMethod)
  rw [attributes, methods]

namespace Inference

variable {types : ClassTypes} {program : Program} {state begun : InferenceState}

theorem settleOpen_of_consistent (consistent : state.Consistent True) : (settleOpen state).2 = state := by
  by_cases noDrift : state.drift = none
  · have tree : state.tree.mapVariables Variable.settleOpen = state.tree := by
      have vars : state.tree.vars.map Variable.settleOpen = state.tree.vars.map id :=
        Array.map_congr_left fun info member =>
          Variable.settleOpen_of_closed (consistent.tree info member).closed
      rw [ScopeTree.mapVariables, vars, Array.map_id]
    rw [settleOpen_of_none noDrift, Hierarchy.settleOpen_of_consistent consistent.hierarchy, tree]
  · rw [settleOpen, advance_of_drift noDrift]

theorem walkUntilStable_of_fixed (more : Nat) (fixed : walk types program begun = (program, state))
    (unchanged : state.changed = false) : walkUntilStable types more program begun = ((program, 1), state) := by
  cases more with
  | zero =>
      change (((walk types program begun).1, 1), (walk types program begun).2) = _
      rw [fixed]
  | succ more =>
      rw [walkUntilStable_succ, fixed]
      dsimp only
      rw [unchanged]
      rfl

/-- Where walks change nothing and nothing is open, inference walks once a phase. -/
theorem bothPhases_of_fixed (limit : Nat) (begins : (beginWalk begun).2 = (beginWalk state).2)
    (fixed : nextWalk types (program, state) = (program, state)) (unchanged : state.changed = false)
    (closed : state.Consistent True) : bothPhases types limit program begun = ((program, 2), state) := by
  have first : walkUntilStable types (limit - 1) program begun = ((program, 1), state) :=
    walkUntilStable_of_fixed (limit - 1) ((walk_congr begins).trans fixed) unchanged
  have second : walkUntilStable types (limit - 1) program state = ((program, 1), state) :=
    walkUntilStable_of_fixed (limit - 1) fixed unchanged
  change (let observed := walkUntilStable types (limit - 1) program begun
    let followed := walkUntilStable types (limit - 1) observed.1.1 (settleOpen observed.2).2
    ((followed.1.1, observed.1.2 + followed.1.2), followed.2)) = _
  rw [first]
  dsimp only
  rw [settleOpen_of_consistent closed, second]
  rfl

end Inference

namespace Analysis

open Inference

/-- What inference starts with. -/
def started (analysis : Analysis) : Program × InferenceState :=
  (analysis.program, ⟨analysis.hierarchy, analysis.tree, .initial, false, none⟩)

/-- What is known about a checked program after both phases of inference. -/
def followed (limit : Nat) (analysis : Analysis) : Program × InferenceState :=
  let repeated := bothPhases analysis.types limit analysis.started.1 analysis.started.2
  (repeated.1.1, repeated.2)

/-- How inference of a checked program goes on and ends. -/
structure Converges (analysis : Analysis) : Prop where
  /-- From any moment between two walks to any later one, what is resolved stays resolved and moves upward
  only. -/
  ascends : ∀ left right : Program × InferenceState,
    Relation.ReflTransGen (Passes analysis.types) analysis.started left →
      Relation.ReflTransGen (Passes analysis.types) left right →
        left.2.Advances analysis.hierarchy right.2
  /-- Both phases of inference are such walks. -/
  passes : ∀ limit,
    Relation.ReflTransGen (Passes analysis.types) analysis.started (analysis.observed limit) ∧
      Relation.ReflTransGen (Passes analysis.types) (analysis.observed limit) (analysis.followed limit)
  /-- With enough walks allowed, both phases stop because a walk has changed nothing, and all limits lead to
  the same, which stays as it is when inference is run again. -/
  ends : ∃ bound, ∀ limit, bound ≤ limit →
    (analysis.observed limit).2.changed = false ∧
    (analysis.followed limit).2.changed = false ∧
    (∃ walks, (analysis.infer limit).2 = .ok walks) ∧
    analysis.infer limit = analysis.infer bound ∧
    ∀ again, (analysis.infer limit).1.infer again = ((analysis.infer limit).1, .ok 2)

variable {program : Program}

theorem started_standing (program : Program) :
    Standing (checked program).hierarchy (checked program).types (checked program).started := by
  have prepared := checked_prepared program
  exact ⟨⟨.refl _, ⟨prepared.consistent.1, prepared.consistent.2⟩, prepared.valid, prepared.features,
    prepared.known⟩, rfl, prepared.notes.hinting, prepared.outline⟩

theorem started_enrolled (program : Program) :
    Enrolled (checked program).hierarchy (checked program).types (checked program).tree
      (((checked program).types.filterMap id).zip ((checked program).tree.children ScopeTree.root)) := by
  have prepared := checked_prepared program
  refine ⟨prepared.rooted, prepared.areClasses, rfl, ?_⟩
  rw [List.map_fst_zip (Nat.le_of_eq prepared.numbered)]
  exact prepared.distinct

theorem passes_observed (limit : Nat) (analysis : Analysis) :
    Relation.ReflTransGen (Passes analysis.types) analysis.started (analysis.observed limit) :=
  walkUntilStable_passes ..

theorem passes_followed (limit : Nat) (analysis : Analysis) :
    Relation.ReflTransGen (Passes analysis.types) (analysis.observed limit) (analysis.followed limit) :=
  .head (.settle _) (walkUntilStable_passes ..)

/-- What both phases do from the start. -/
theorem passes_whole (limit : Nat) (analysis : Analysis) :
    Relation.ReflTransGen (Passes analysis.types) analysis.started (analysis.followed limit) :=
  (passes_observed limit analysis).trans (passes_followed limit analysis)

/-- If the second phase ends by itself, it ends where walks change nothing and nothing is open. -/
theorem followed_fixed (limit : Nat) (stopped : ((checked program).followed limit).2.changed = false) :
    ((checked program).followed limit).2.Consistent True ∧
      nextWalk (checked program).types ((checked program).followed limit) =
        (checked program).followed limit := by
  obtain ⟨enrolled, observed, _⟩ := ascends_of_passes (passes_observed limit (checked program))
    (started_enrolled program) (started_standing program)
  obtain ⟨enrolled, standing, _⟩ := ascends_of_passes (passes_followed limit (checked program)) enrolled observed
  obtain ⟨before, closed, last⟩ := exists_last_walk (p := fun left => left.2.Consistent True)
    (fun left closed => walk_consistent closed) (limit - 1) ((checked program).observed limit).1
    (settleOpen_consistent observed.noDrift observed.sound.consistent)
  have isLast : walk (checked program).types before.1 before.2 = (checked program).followed limit := last
  have ended := (walk_ascends enrolled standing).standing.noDrift
  have isFixed := isFixedPt_of_closed closed (isLast ▸ ⟨stopped, standing.noDrift⟩) (isLast ▸ ended)
  rw [isLast] at isFixed
  exact ⟨isLast ▸ walk_consistent closed, isFixed⟩

/-- The number of walks, or how one differed from the tree. -/
def outcome (ended : (Program × Nat) × InferenceState) : Except ScopeDrift Nat :=
  match ended.2.drift with
  | some drift => .error drift
  | none => .ok ended.1.2

theorem infer_of_phases {analysis : Analysis} {limit : Nat} {ended : (Program × Nat) × InferenceState}
    (phases : bothPhases analysis.types limit analysis.started.1 analysis.started.2 = ended) :
    analysis.infer limit =
      (⟨ended.1.1, analysis.types, ended.2.hierarchy, ended.2.tree⟩, outcome ended) := by
  rw [← phases]
  rfl

/-- What has been inferred is inferred again in two walks. -/
theorem infer_of_fixed {analysis : Analysis} {limit : Nat} (again : Nat)
    (noDrift : (analysis.followed limit).2.drift = none)
    (closed : (analysis.followed limit).2.Consistent True)
    (fixed : nextWalk analysis.types (analysis.followed limit) = analysis.followed limit)
    (unchanged : (analysis.followed limit).2.changed = false) :
    (analysis.infer limit).1.infer again = ((analysis.infer limit).1, .ok 2) := by
  have begins : (beginWalk ⟨(analysis.followed limit).2.hierarchy, (analysis.followed limit).2.tree, .initial,
      false, none⟩).2 = (beginWalk (analysis.followed limit).2).2 := by
    rw [beginWalk_of_none noDrift, noDrift, beginWalk_of_none rfl]
  have inferred : (analysis.infer limit).1 = ⟨(analysis.followed limit).1, analysis.types,
      (analysis.followed limit).2.hierarchy, (analysis.followed limit).2.tree⟩ :=
    congrArg Prod.fst (infer_of_phases rfl)
  rw [inferred]
  have phases : bothPhases analysis.types again (analysis.followed limit).1
      ⟨(analysis.followed limit).2.hierarchy, (analysis.followed limit).2.tree, .initial, false, none⟩ =
      (((analysis.followed limit).1, 2), (analysis.followed limit).2) :=
    bothPhases_of_fixed again begins fixed unchanged closed
  rw [infer_of_phases phases, outcome, noDrift]

theorem infer_converges (program : Program) : (checked program).Converges := by
  have standing := started_standing program
  have enrolled := started_enrolled program
  refine ⟨fun left right reached passes => ?_, fun limit => ⟨passes_observed limit _, passes_followed limit _⟩, ?_⟩
  · obtain ⟨enrolled', standing', _⟩ := ascends_of_passes reached enrolled standing
    exact (ascends_of_passes passes enrolled' standing').2.2
  · obtain ⟨bound, ends⟩ := bothPhases_ends enrolled standing
    refine ⟨bound, fun limit enough => ?_⟩
    obtain ⟨first, second, same⟩ := ends limit enough
    obtain ⟨closed, fixed⟩ := followed_fixed limit second
    obtain ⟨_, ended, _⟩ := ascends_of_passes ((passes_observed limit (checked program)).trans
      (passes_followed limit _)) enrolled standing
    refine ⟨first, second, (passes_run program limit).1, ?_,
      fun again => infer_of_fixed again ended.noDrift closed fixed second⟩
    rw [infer_of_phases same, infer_of_phases (rfl : bothPhases _ bound _ _ = _)]

end Analysis

end CoolLang
