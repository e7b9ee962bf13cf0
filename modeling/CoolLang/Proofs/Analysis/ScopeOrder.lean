import CoolLang.Analysis.Compile
import CoolLang.Proofs.Hierarchy.Linking
import CoolLang.Proofs.Inference.Run
import CoolLang.Proofs.Program.Notes
import CoolLang.Proofs.Typing.Task

/-!
Typing and inference agree on the scopes of a program. The tree that typing builds has the scopes that
the syntax tells, and every later walk over it enters them all, in pre-order
(`Program.scopes_in_step`).
-/

namespace CoolLang

variable {program walked : Program} {types : ClassTypes} {hierarchy : Hierarchy} {tree : ScopeTree}

/-! ### The tree of a program -/

namespace ScopeTree

theorem allocateAll_spec (tree : ScopeTree) (attributes : List Attribute) (declared : tree.AllDeclared) :
    (tree.allocateAll attributes).2.nodes = tree.nodes ∧
      (tree.allocateAll attributes).2.AllDeclared := by
  induction attributes generalizing tree with
  | nil => exact ⟨rfl, declared⟩
  | cons attr attributes ih =>
      refine ih (tree.allocate (.declared attr.name attr.type)).2 fun info member => ?_
      rcases Array.mem_push.mp member with member | rfl
      · exact declared info member
      · exact ⟨_, _, rfl⟩

theorem createClassScopes_spec (hierarchy : Hierarchy) (types : List TypeId)
    (declared : tree.AllDeclared) :
    let (scopes, after) := createClassScopes hierarchy tree types
    scopes.map ClassScope.scope = List.range' tree.nodes.size types.length ∧
      after.skeleton = Nest.growAll tree.skeleton root (List.replicate types.length (.scope [])) ∧
      after.AllDeclared := by
  induction types generalizing tree with
  | nil => exact ⟨rfl, rfl, declared⟩
  | cons type types ih =>
      obtain ⟨nodes, declared⟩ := allocateAll_spec (tree.createChild root).2
        (hierarchy.info type).attributes declared
      obtain ⟨scopes, grown, declared⟩ := ih declared
      rw [nodes, size_createChild] at scopes
      rw [skeleton_of_nodes nodes, skeleton_createChild] at grown
      refine ⟨?_, ?_, declared⟩
      · exact congrArg _ scopes
      · rw [List.length_cons, List.replicate_succ, Nest.growAll, Nest.grow, Nest.growAll]
        exact grown

theorem foldl_spec {α : Type} (step : ScopeTree → α → ScopeTree) (items : List α)
    (keeps : ∀ tree item, tree.AllDeclared →
      (step tree item).skeleton = tree.skeleton ∧ (step tree item).AllDeclared)
    (declared : tree.AllDeclared) :
    (items.foldl step tree).skeleton = tree.skeleton ∧ (items.foldl step tree).AllDeclared := by
  induction items generalizing tree with
  | nil => exact ⟨rfl, declared⟩
  | cons item items ih =>
      obtain ⟨one, declared⟩ := keeps tree item declared
      obtain ⟨all, declared⟩ := ih declared
      exact ⟨all.trans one, declared⟩

/-- What classes see does not change which scopes there are. -/
theorem openClasses_spec (hierarchy : Hierarchy) (types : ClassTypes) :
    (openClasses hierarchy types).1 = List.range' 1 (types.filterMap id).length ∧
      (openClasses hierarchy types).2.skeleton = Nest.roots (types.filterMap id).length ∧
      (openClasses hierarchy types).2.AllDeclared := by
  have nothing : initial.AllDeclared := fun info member => absurd member (Array.not_mem_empty info)
  obtain ⟨scopes, grown, declared⟩ := createClassScopes_spec hierarchy (types.filterMap id) nothing
  have attached (tree : ScopeTree) (known : ClassScope) (ids : List VariableId)
      (declared : tree.AllDeclared) :=
    foldl_spec (fun tree id => tree.attach known.scope id) ids
      (fun tree id declared => ⟨skeleton_attach tree known.scope id, declared⟩) declared
  obtain ⟨same, declared⟩ := foldl_spec _ (createClassScopes hierarchy initial (types.filterMap id)).1
    (fun tree known declared => attached tree known (visibleAttributes hierarchy
      (createClassScopes hierarchy initial (types.filterMap id)).1 known.type) declared) declared
  have start : initial.skeleton = initial := by
    simp [skeleton, initial]
  rw [start] at grown
  exact ⟨scopes, same.trans grown, declared⟩

end ScopeTree

namespace Program

theorem length_nests (fits : types.length = program.classes.length) :
    (program.nests types).length = (types.filterMap id).length := by
  obtain ⟨decls⟩ := program
  induction decls generalizing types with
  | nil =>
      obtain rfl := List.length_eq_zero_iff.mp fits
      rfl
  | cons decl decls ih =>
      obtain _ | ⟨type, types⟩ := types
      · cases fits
      · have later := ih (Nat.succ.inj fits)
        cases type with
        | none => exact later
        | some type => exact congrArg (· + 1) later

/-- Typing builds the tree that the syntax tells, whatever the types. -/
theorem check_spec (fits : types.length = program.classes.length) (hierarchy : Hierarchy) :
    (program.check types hierarchy).1.untyped = program.untyped ∧
      (program.check types hierarchy).2.1.skeleton = Nest.outline (program.nests types) ∧
      (program.check types hierarchy).2.1.AllDeclared := by
  obtain ⟨scopes, grown, declared⟩ := ScopeTree.openClasses_spec hierarchy types
  obtain ⟨performs, same⟩ := Typing.checkClasses_performs hierarchy program.classes types
    (ScopeTree.openClasses hierarchy types).1
    ⟨(ScopeTree.openClasses hierarchy types).2, none, none, #[]⟩
  refine ⟨congrArg Program.mk same, (performs.built rfl).2.2.trans ?_, performs.declared declared rfl⟩
  rw [ScopeTask.grow_inside, grown, scopes, ← length_nests fits]
  rfl

end Program

/-! ### Walks over the tree -/

namespace Inference

variable {state : InferenceState}

/-- A walk over the tree of its program enters all scopes and learns without ado. -/
theorem walk_spec (isOutline : state.tree.skeleton = Nest.outline (walked.nests types))
    (noDrift : state.drift = none) :
    (walk types walked state).1.untyped = walked.untyped ∧
      (walk types walked state).2.drift = none ∧
      (walk types walked state).2.tree.nodes = state.tree.nodes ∧
      (walk types walked state).2.cursor.IsComplete state.tree := by
  obtain ⟨last, runs, ends, same⟩ := walk_runs types walked state
  rw [beginWalk, advance_of_none noDrift] at runs
  obtain ⟨complete, moved, isComplete⟩ := Nest.exists_complete isOutline
  obtain ⟨noDrift, isLast, nodes⟩ := runs.moves noDrift moved
  have finished : last.cursor.finish last.tree = .ok () := by
    rw [isLast, Cursor.finish_congr nodes]
    exact isComplete.finished
  rw [ends, endWalk, advance_of_none noDrift, finished]
  exact ⟨same, noDrift, nodes, isLast ▸ isComplete⟩

theorem walkUntilStable_succ (types : ClassTypes) (more : Nat) (program : Program)
    (state : InferenceState) :
    walkUntilStable types (more + 1) program state =
      let after := walk types program state
      if after.2.changed && after.2.drift.isNone then
        let final := walkUntilStable types more after.1 after.2
        ((final.1.1, final.1.2 + 1), final.2)
      else ((after.1, 1), after.2) := by
  simp only [walkUntilStable, bind, StateT.bind, get, getThe, MonadStateOf.get, StateT.get, pure]
  obtain ⟨program, state⟩ := walk types program state
  dsimp only
  cases state.changed && state.drift.isNone <;> rfl

theorem walkUntilStable_spec (state : InferenceState) (more : Nat)
    (untyped : walked.untyped = program.untyped)
    (isOutline : state.tree.skeleton = Nest.outline (program.nests types))
    (noDrift : state.drift = none) :
    (walkUntilStable types more walked state).1.1.untyped = program.untyped ∧
      (walkUntilStable types more walked state).2.drift = none ∧
      (walkUntilStable types more walked state).2.tree.nodes = state.tree.nodes := by
  have nests := Program.nests_of_untyped untyped types
  induction more generalizing walked state with
  | zero =>
      obtain ⟨same, noDrift, nodes, _⟩ := walk_spec (nests ▸ isOutline) noDrift
      exact ⟨same.trans untyped, noDrift, nodes⟩
  | succ more ih =>
      obtain ⟨same, noDrift, nodes, _⟩ := walk_spec (nests ▸ isOutline) noDrift
      have again := ih _ (same.trans untyped) ((ScopeTree.skeleton_of_nodes nodes).trans isOutline) noDrift
        (Program.nests_of_untyped (same.trans untyped) types)
      rw [nodes] at again
      rw [walkUntilStable_succ]
      dsimp only
      split
      · exact again
      · exact ⟨same.trans untyped, noDrift, nodes⟩

theorem settleOpen_of_none (noDrift : state.drift = none) :
    (settleOpen state).2 = { state with
      hierarchy := state.hierarchy.settleOpen
      tree := state.tree.mapVariables Variable.settleOpen } :=
  congrArg Prod.snd (advance_of_none noDrift)

theorem settleOpen_spec (noDrift : state.drift = none) :
    (settleOpen state).2.drift = none ∧ (settleOpen state).2.tree.nodes = state.tree.nodes := by
  rw [settleOpen_of_none noDrift]
  exact ⟨noDrift, rfl⟩

/-- Inference comes to an end without drift. -/
theorem bothPhases_spec (state : InferenceState) (limit : Nat)
    (untyped : walked.untyped = program.untyped)
    (isOutline : state.tree.skeleton = Nest.outline (program.nests types))
    (noDrift : state.drift = none) :
    (bothPhases types limit walked state).1.1.untyped = program.untyped ∧
      (bothPhases types limit walked state).2.drift = none ∧
      (bothPhases types limit walked state).2.tree.nodes = state.tree.nodes := by
  obtain ⟨same, noDrift, first⟩ := walkUntilStable_spec state (limit - 1) untyped isOutline noDrift
  obtain ⟨noDrift, second⟩ := settleOpen_spec noDrift
  obtain ⟨same, noDrift, third⟩ := walkUntilStable_spec _ (limit - 1) same
    ((ScopeTree.skeleton_of_nodes (second.trans first)).trans isOutline) noDrift
  exact ⟨same, noDrift, third.trans (second.trans first)⟩

end Inference

namespace Program

/-- All passes agree on the scopes of a program, with these class types and with this hierarchy when the
tree is built. -/
structure ScopesInStep (program : Program) (types : ClassTypes) (hierarchy : Hierarchy) : Prop where
  /-- The tree has the scopes that the syntax tells. -/
  shape : (Nest.scope (program.nests types)).At (program.check types hierarchy).2.1 ScopeTree.root
  /-- Which scopes there are, and how they are numbered, depends on nothing but the syntax and on which
  classes have a type. -/
  fixed : ∀ (other : Program) (types' : ClassTypes) (hierarchy' : Hierarchy),
    other.untyped = program.untyped → types'.map Option.isSome = types.map Option.isSome →
    (other.check types' hierarchy').2.1.skeleton = (program.check types hierarchy).2.1.skeleton
  /-- Every walk of inference, from whatever has been learned, goes through all of the tree. -/
  inferring : ∀ (walked : Program) (state : InferenceState), walked.untyped = program.untyped →
    state.tree.skeleton = (program.check types hierarchy).2.1.skeleton → state.drift = none →
      (Inference.walk types walked state).2.drift = none ∧
        (Inference.walk types walked state).2.cursor.IsComplete state.tree
  /-- So does every walk that verifies. -/
  verifying : ∀ (walked : Program) (hierarchy' : Hierarchy) (tree : ScopeTree),
    walked.untyped = program.untyped →
    tree.skeleton = (program.check types hierarchy).2.1.skeleton →
      ∃ cursor : Cursor, cursor.IsComplete tree ∧
        (Typing.verifyClasses hierarchy' walked.classes types
          ⟨tree, some .initial, none, #[]⟩).2.cursor = some cursor ∧
        (walked.verify types hierarchy' tree).2.2 = .ok ()
  /-- Inference and the verification after it return no drift, whatever the limit. -/
  no_drift : ∀ (hierarchy' : Hierarchy) (limit : Nat),
    let inferred := (program.check types hierarchy).1.infer types hierarchy'
      (program.check types hierarchy).2.1 limit
    (∃ walks, inferred.walks = .ok walks) ∧
      (inferred.program.verify types inferred.hierarchy inferred.tree).2.2 = .ok ()

theorem nests_of_isSome {types' : ClassTypes} (same : types'.map Option.isSome = types.map Option.isSome) :
    program.nests types' = program.nests types := by
  obtain ⟨decls⟩ := program
  induction decls generalizing types types' with
  | nil => rfl
  | cons decl decls ih =>
      match types, types', same with
      | [], [], _ => rfl
      | none :: types, none :: types', same => exact ih (List.cons.inj same).2
      | some _ :: types, some _ :: types', same =>
          exact congrArg (Nest.scope decl.nests :: ·) (ih (List.cons.inj same).2)
      | none :: _, some _ :: _, same | some _ :: _, none :: _, same => cases (List.cons.inj same).1

theorem verify_spec (hierarchy : Hierarchy)
    (isOutline : tree.skeleton = Nest.outline (walked.nests types)) :
    ∃ cursor : Cursor, cursor.IsComplete tree ∧
      (Typing.verifyClasses hierarchy walked.classes types
        ⟨tree, some .initial, none, #[]⟩).2.cursor = some cursor ∧
      (walked.verify types hierarchy tree).2.2 = .ok () := by
  obtain ⟨complete, moved, isComplete⟩ := Nest.exists_complete isOutline
  have performs := (Typing.verifyClasses_performs hierarchy walked.classes types
    ⟨tree, some .initial, none, #[]⟩).1
  obtain ⟨isLast, noDrift, same⟩ := performs.replayed .initial complete rfl rfl
    ((congrArg _ (ScopeTask.marks_visits ..)).trans moved)
  refine ⟨complete, isComplete, isLast, ?_⟩
  have finished := isComplete.finished
  unfold verify
  dsimp only [StateT.run] at same ⊢
  rw [← same] at finished
  generalize Typing.verifyClasses hierarchy walked.classes types ⟨tree, some .initial, none, #[]⟩ = verified at *
  obtain ⟨classes, last⟩ := verified
  dsimp only at isLast noDrift finished ⊢
  rw [noDrift, isLast]
  exact finished

theorem infer_spec (hierarchy : Hierarchy) (limit : Nat) (untyped : walked.untyped = program.untyped)
    (isOutline : tree.skeleton = Nest.outline (program.nests types)) :
    (∃ walks, (walked.infer types hierarchy tree limit).walks = .ok walks) ∧
      (walked.infer types hierarchy tree limit).program.untyped = program.untyped ∧
      (walked.infer types hierarchy tree limit).tree.nodes = tree.nodes := by
  obtain ⟨same, noDrift, nodes⟩ := Inference.bothPhases_spec ⟨hierarchy, tree, .initial, false, none⟩ limit
    untyped isOutline rfl
  refine ⟨⟨(Inference.bothPhases types limit walked ⟨hierarchy, tree, .initial, false, none⟩).1.2, ?_⟩,
    same, nodes⟩
  unfold infer
  dsimp only [StateT.run]
  generalize Inference.bothPhases types limit walked ⟨hierarchy, tree, .initial, false, none⟩ = inferred at *
  obtain ⟨⟨program, walks⟩, last⟩ := inferred
  dsimp only at noDrift ⊢
  rw [noDrift]

theorem scopesInStep (fits : types.length = program.classes.length) (hierarchy : Hierarchy) :
    program.ScopesInStep types hierarchy := by
  obtain ⟨untyped, isOutline, _⟩ := check_spec fits hierarchy
  refine ⟨?_, fun other types' hierarchy' same present => ?_, fun walked state same alike noDrift => ?_,
    fun walked hierarchy' tree same alike => ?_, fun hierarchy' limit => ?_⟩
  · exact (Nest.at_skeleton _).mp (isOutline ▸ (Nest.outline_at _).1)
  · have counts := congrArg (List.length ∘ classes) same
    have present' := congrArg List.length present
    simp only [Program.untyped, Function.comp_apply, List.length_map] at counts present'
    rw [isOutline, (check_spec (by omega) hierarchy').2.1, nests_of_untyped same, nests_of_isSome present]
  · obtain ⟨_, noDrift, _, complete⟩ := Inference.walk_spec (alike.trans (isOutline.trans
      (by rw [nests_of_untyped same]))) noDrift
    exact ⟨noDrift, complete⟩
  · exact verify_spec hierarchy' (alike.trans (isOutline.trans (by rw [nests_of_untyped same])))
  · obtain ⟨walks, same, nodes⟩ := infer_spec hierarchy' limit untyped isOutline
    refine ⟨walks, ?_⟩
    obtain ⟨_, _, _, done⟩ := verify_spec _ ((ScopeTree.skeleton_of_nodes nodes).trans
      (isOutline.trans (by rw [nests_of_untyped same])))
    exact done

end Program

namespace Analysis

theorem checked_outline (program : Program) :
    (checked program).tree.skeleton =
      Nest.outline ((checked program).program.nests (checked program).types) := by
  obtain ⟨same, isOutline, _⟩ := Program.check_spec (Hierarchy.length_collect .initial program)
    ((Hierarchy.initial.collect program).1.build program (Hierarchy.initial.collect program).2.1).1
  exact isOutline.trans (by rw [← Program.nests_of_untyped same]; rfl)

theorem inferAndVerify_ne_drift {analysis : Analysis} (limit : Nat) (found : List Diagnostic)
    (drift : ScopeDrift)
    (isOutline : analysis.tree.skeleton = Nest.outline (analysis.program.nests analysis.types)) :
    analysis.inferAndVerify limit found ≠ .error (.drift drift) := by
  obtain ⟨⟨walks, inferred⟩, same, nodes⟩ :=
    Program.infer_spec analysis.hierarchy limit rfl isOutline
  obtain ⟨_, _, _, verified⟩ := Program.verify_spec
    (analysis.program.infer analysis.types analysis.hierarchy analysis.tree limit).hierarchy
    ((ScopeTree.skeleton_of_nodes nodes).trans (isOutline.trans
      (by rw [Program.nests_of_untyped same])))
  unfold inferAndVerify infer
  dsimp only
  rw [inferred]
  dsimp only [verify]
  rw [verified]
  nofun

theorem complete_ne_drift (options : Options) (scanned : List Diagnostic) (program : Program)
    (drift : ScopeDrift) : complete options scanned program ≠ .error (.drift drift) := by
  unfold complete
  dsimp only
  split
  · exact inferAndVerify_ne_drift _ _ _ (checked_outline program)
  · nofun

end Analysis

theorem compile_ne_drift (options : Options) (source : String) (drift : ScopeDrift) :
    compile options source ≠ .error (.drift drift) := by
  rw [compile]
  generalize Program.parse (Scan.ofSource source).tokens = parsed
  rcases parsed with (_ | _) | program
  · nofun
  · nofun
  · exact Analysis.complete_ne_drift options _ program drift

namespace Program

/-- All passes go through the scopes of every program in the same way, and so no analysis fails because
two of them differ. -/
theorem scopes_in_step :
    (∀ (program : Program) (types : ClassTypes) (hierarchy : Hierarchy),
      types.length = program.classes.length → program.ScopesInStep types hierarchy) ∧
    ∀ (options : Options) (source : String) (drift : ScopeDrift),
      compile options source ≠ .error (.drift drift) :=
  ⟨fun _ _ hierarchy fits => scopesInStep fits hierarchy, compile_ne_drift⟩

section

private def word (name : String) : Ident :=
  ⟨name, ⟨4, 2⟩⟩

private def fresh : Note :=
  ⟨⟨4, 2⟩, none⟩

/-- Two classes of one name, a dispatch to no method there is, and all that opens scopes. -/
def redefined : Program where
  classes := [
    ⟨word "A", none,
      [.attribute ⟨word "x", word "AUTO_TYPE", some (.block fresh [.integer fresh 1])⟩], ⟨1, 1⟩⟩,
    ⟨word "A", none, [.attribute ⟨word "y", word "Int", none⟩], ⟨2, 1⟩⟩,
    ⟨word "B", some (word "A"), [
      .method ⟨word "m", [⟨word "n", word "AUTO_TYPE"⟩], word "Object",
        .letIn fresh
          [⟨word "u", none, none⟩, ⟨word "v", some (word "Int"), some (.identifier fresh "u")⟩]
          (.caseOf fresh (.dispatch fresh none none (word "gone") [.block fresh [.identifier fresh "n"]])
            [⟨word "i", word "Int", .block fresh [.identifier fresh "i"]⟩,
              ⟨word "o", word "Object", .identifier fresh "o"⟩])⟩], ⟨3, 1⟩⟩]

theorem scopes_in_step_redefined :
    (Hierarchy.initial.collect redefined).2.1 = [some ⟨8⟩, none, some ⟨9⟩] ∧
      redefined.ScopesInStep [some ⟨8⟩, none, some ⟨9⟩] (Hierarchy.initial.collect redefined).1 ∧
      (redefined.check [some ⟨8⟩, none, some ⟨9⟩]
        (Hierarchy.initial.collect redefined).1).2.1.preorder.map Prod.snd =
          [0, 1, 2, 3, 1, 2, 3, 4, 5, 5, 6, 5] ∧
      ∀ (options : Options) (source : String) (drift : ScopeDrift),
        compile options source ≠ .error (.drift drift) :=
  ⟨by decide +kernel, scopes_in_step.1 redefined _ _ rfl, by decide +kernel, scopes_in_step.2⟩

end

end Program

end CoolLang
