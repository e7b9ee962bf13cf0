import CoolLang.Proofs.Scope.Classes
import CoolLang.Proofs.Typing.Survey

/-!
Typing classes. Where the tree is built, each class is typed in the scope that has been opened for it
(`Program.check_surveyed`); over a finished tree, classes are typed in the scopes that are entered in turn
(`Program.verify_surveyed`). Both find out what a survey of the program finds.
-/

namespace CoolLang

namespace ScopeTree

/-- A tree with a root in which nothing is declared. -/
structure Grounded (tree : ScopeTree) : Prop where
  wellFormed : tree.WellFormed
  known : root < tree.nodes.size
  outermost : tree.parent? root = none
  bare : tree.locals root = []

theorem Grounded.of_nodes {tree after : ScopeTree} (grounded : tree.Grounded)
    (nodes : after.nodes = tree.nodes) (vars : after.vars.size = tree.vars.size) : after.Grounded := by
  have node := node_of_nodes nodes
  obtain ⟨⟨parents, children, locals⟩, known, outermost, bare⟩ := grounded
  unfold parent? ScopeTree.children ScopeTree.locals at *
  rw [← node] at *
  exact ⟨⟨parents, nodes ▸ children, vars ▸ locals⟩, nodes ▸ known, outermost, bare⟩

end ScopeTree

namespace Survey

variable {α β : Type}

theorem diagnostics_bind (hierarchy : Hierarchy) (survey : Survey α) (next : α → Survey β) :
    (survey >>= next).diagnostics hierarchy =
      survey.diagnostics hierarchy ++ (next survey.value).diagnostics hierarchy :=
  List.flatMap_append

theorem diagnostics_map (hierarchy : Hierarchy) (survey : Survey α) (change : α → β) :
    (survey >>= fun value => pure (change value)).diagnostics hierarchy = survey.diagnostics hierarchy :=
  congrArg (List.flatMap _) (List.append_nil _)

end Survey

namespace Surroundings

variable (around : Surroundings) (tree : ScopeTree)

/-- What a feature declares whose scope is at a place in the scope of its class. -/
def declarationsFeature (scope : ScopeId) (place : Nat) (feature : Feature) : Declarations :=
  (tree.child scope place, around.featureVariables feature) ::
    match feature with
    | .attribute decl =>
        Surroundings.declarationsOption { around with feature := decl.name.name } tree
          (tree.child scope place) 0 decl.init
    | .method decl =>
        Surroundings.declarations { around with feature := decl.name.name } tree
          (tree.child scope place) 0 decl.body

def declarationsFeatures (scope : ScopeId) : Nat → List Feature → Declarations
  | _, [] => []
  | place, feature :: features =>
      around.declarationsFeature tree scope place feature ++
        declarationsFeatures scope (place + 1) features

end Surroundings

/-- What the classes declare that have these types and scopes. -/
def declarationsClasses (hierarchy : Hierarchy) (all : ClassTypes) (tree : ScopeTree) :
    List ClassDecl → ClassTypes → List ScopeId → Declarations
  | _ :: decls, none :: types, scopes => declarationsClasses hierarchy all tree decls types scopes
  | decl :: decls, some type :: types, scope :: scopes =>
      (scope, Site.attributes hierarchy all type) ::
        (Surroundings.declarationsFeatures ⟨hierarchy, type, ""⟩ tree scope 0 decl.features ++
          declarationsClasses hierarchy all tree decls types scopes)
  | _, _, _ => []

/-- What a program declares, in a tree that has its scopes. -/
def Program.declarations (program : Program) (types : ClassTypes) (hierarchy : Hierarchy)
    (tree : ScopeTree) : Declarations :=
  declarationsClasses hierarchy types tree program.classes types (tree.children ScopeTree.root)

section

variable {one two : ScopeTree} (same : one.child = two.child)
include same

theorem Surroundings.declarationsFeatures_congr (around : Surroundings) (scope : ScopeId) (place : Nat)
    (features : List Feature) :
    around.declarationsFeatures one scope place features = around.declarationsFeatures two scope place features := by
  induction features generalizing place with
  | nil => rfl
  | cons feature features ih =>
      have first : around.declarationsFeature one scope place feature =
          around.declarationsFeature two scope place feature := by
        rcases feature with decl | decl
        · simp only [declarationsFeature, same, declarationsOption_congr same]
        · simp only [declarationsFeature, same, declarations_congr same]
      rw [declarationsFeatures, declarationsFeatures, first, ih]

theorem declarationsClasses_congr (hierarchy : Hierarchy) (all : ClassTypes) (decls : List ClassDecl)
    (types : ClassTypes) (scopes : List ScopeId) : declarationsClasses hierarchy all one decls types scopes =
      declarationsClasses hierarchy all two decls types scopes := by
  induction decls generalizing types scopes with
  | nil => rcases types with _ | ⟨_ | _, _⟩ <;> rfl
  | cons decl decls ih =>
      rcases types with _ | ⟨_ | type, types⟩
      · rfl
      · exact ih types scopes
      · rcases scopes with _ | ⟨scope, scopes⟩
        · rfl
        · rw [declarationsClasses, declarationsClasses, Surroundings.declarationsFeatures_congr same, ih]

end

namespace Typing

variable {α β : Type} {site : Site} {scope : ScopeId} {place : Nat}

/-- Where a site is does not depend on the class and the feature around it. -/
theorem Tracks.around {nests : List Nest} {action : Typing α} {survey : Survey α}
    {declared : ScopeTree → Declarations} {current : TypeId} {name : String}
    (tracks : Tracks { site with current := current, feature := name } scope place nests action survey
      declared) : Tracks site scope place nests action survey declared := by
  intro outer state stands fits
  have after := tracks outer state
    ⟨stands.wellFormed, stands.known, stands.sees, stands.building, stands.replaying⟩ fits
  exact ⟨after.value, after.found, ⟨after.stands.wellFormed, after.stands.known, after.stands.sees,
    after.stands.building, after.stands.replaying⟩, after.growth, after.vars, after.declared⟩

theorem checkAttribute_tracks (site : Site) (scope : ScopeId) (decl : AttributeDecl) :
    Tracks site scope 0 (Expr.nestsOption decl.init)
      (checkAttribute site.toSurroundings scope decl) (site.surveyAttribute decl)
      (fun tree => site.declarationsOption tree scope 0 decl.init) := by
  unfold checkAttribute Site.surveyAttribute
  obtain ⟨name, written, init⟩ := decl
  cases init with
  | none =>
      simp only [Expr.nestsOption, Surroundings.declarationsOption]
      exact Tracks.pure _ 0
  | some init =>
      simp only [Expr.nestsOption, Surroundings.declarationsOption]
      exact (check_tracks site scope 0 init).bindSilent fun typed =>
        (silent_expectConforming (.attribute _) typed.2 _ typed.1.position).trans fun _ => Tracks.pure _

/-- The body of a method, with the parameters declared. -/
theorem checkBody_tracks (site : Site) (scope : ScopeId) (decl : MethodDecl) :
    Tracks site scope 0 decl.body.nests
      (do
        let (body, type) ← check site.toSurroundings scope decl.body
        expectConforming site.toSurroundings type (site.resultType decl) body.position
        return { decl with body := body })
      (site.surveyMethod decl) (fun tree => site.declarations tree scope 0 decl.body) := by
  unfold Site.surveyMethod
  exact (check_tracks site scope 0 decl.body).bindSilent fun typed =>
    (silent_expectConforming (.result decl) typed.2 _ typed.1.position).trans fun _ => Tracks.pure _

/-- Declaring `self` and the parameters of a method. -/
theorem declares_params (around : Surroundings) (params : List Param) (slots : List Variable) :
    Declares (.declared "self" around.current ::
        params.map fun param => .declared param.name.name (around.paramType param)) slots
      (fun child => do
        let _ ← declare child 0 (.declared "self" around.current)
        declareParams around child 1 params) () := by
  intro child state
  refine ⟨fun building _ => ?_, fun replaying _ => ?_⟩
  · change declareParams around child 1 params
      (declare child 0 (.declared "self" around.current) state).2 = _
    rw [declare_of_building 0 _ building]
    exact @declareParams_of_building child around params 1 { state with tree := _ } building
  · obtain ⟨cursor, isCursor⟩ := Option.ne_none_iff_exists'.mp replaying
    change declareParams around child 1 params
      (declare child 0 (.declared "self" around.current) state).2 = _
    rw [declare_of_replaying 0 _ isCursor]
    exact declareParams_of_replaying around params replaying

theorem checkFeature_tracks (site : Site) (scope : ScopeId) (place : Nat) (feature : Feature) :
    Tracks site scope place [.scope feature.nests]
      (checkFeature site.hierarchy site.current scope feature) (site.surveyFeature place feature)
      (fun tree => site.declarationsFeature tree scope place feature) := by
  rcases feature with decl | decl
  · let site' : Site := { site with feature := decl.name.name }
    have body (child : ScopeId) : Tracks (site'.inside place [.declared "self" site.current]) child 0
        (Expr.nestsOption decl.init)
        (checkAttribute site'.toSurroundings child decl >>= fun decl => pure (Feature.attribute decl))
        ((site'.inside place [.declared "self" site.current]).surveyAttribute decl >>= fun decl =>
          pure (Feature.attribute decl))
        (fun tree => site'.declarationsOption tree child 0 decl.init) :=
      (checkAttribute_tracks (site'.inside place [.declared "self" site.current]) child decl).bindSilent
        fun decl => Tracks.pure (Feature.attribute decl)
    exact Tracks.around (tracks_inside scope (fun child _ => _) (fun tree child => _)
      (declares_one (.declared "self" site.current) _).ignore body)
  · let site' : Site := { site with feature := decl.name.name }
    have body (child : ScopeId) : Tracks (site'.inside place (site.featureVariables (.method decl))) child 0
        decl.body.nests
        (do
          let (body, type) ← check site'.toSurroundings child decl.body
          expectConforming site'.toSurroundings type (site'.resultType decl) body.position
          pure (Feature.method { decl with body := body }))
        ((site'.inside place (site.featureVariables (.method decl))).surveyMethod decl >>= fun decl =>
          pure (Feature.method decl))
        (fun tree => site'.declarations tree child 0 decl.body) :=
      (checkBody_tracks (site'.inside place (site.featureVariables (.method decl))) child decl).bindSilent
        fun decl => Tracks.pure (Feature.method decl)
    exact Tracks.around (tracks_inside scope (fun child _ => _) (fun tree child => _)
      (declares_params site'.toSurroundings decl.params _) body)

theorem checkFeatures_tracks (site : Site) (scope : ScopeId) (place : Nat) (features : List Feature) :
    Tracks site scope place (features.map fun feature => .scope feature.nests)
      (checkFeatures site.hierarchy site.current scope features) (site.surveyFeatures place features)
      (fun tree => site.declarationsFeatures tree scope place features) := by
  induction features generalizing place with
  | nil => exact Tracks.pure _ place
  | cons feature features ih =>
      exact (checkFeature_tracks site scope place feature).bind fun feature =>
        (ih (place + 1)).bindSilent fun features => Tracks.pure (feature :: features)

theorem checkClass_tracks (site : Site) (scope : ScopeId) (decl : ClassDecl) :
    Tracks site scope 0 decl.nests (checkClass site.hierarchy site.current scope decl)
      (site.surveyClass decl) (fun tree => site.declarationsFeatures tree scope 0 decl.features) :=
  (checkFeatures_tracks site scope 0 decl.features).bindSilent fun _ => Tracks.pure _

/-! ### Going over a tree -/

/-- Where a tree is gone over, nothing is declared. -/
theorem Tracks.ofTree {tree : ScopeTree} {nests : List Nest} {action : Typing α} {survey : Survey α}
    {first second : ScopeTree → Declarations} (isTree : site.tree = some tree)
    (tracks : Tracks site scope place nests action survey first) :
    Tracks site scope place nests action survey second := by
  intro outer state stands fits
  have after := tracks outer state stands fits
  have replaying (building : site.tree = none) : False := Option.some_ne_none tree (isTree.symm.trans building)
  exact ⟨after.value, after.found, after.stands, fun building => (replaying building).elim,
    fun building => (replaying building).elim, fun building => (replaying building).elim⟩

theorem verifyClasses_tracks (hierarchy : Hierarchy) (tree : ScopeTree) (all : ClassTypes)
    (current : TypeId) (decls : List ClassDecl) (types : ClassTypes) (place : Nat) :
    Tracks ⟨⟨hierarchy, current, ""⟩, some tree, ScopeTree.root, []⟩ ScopeTree.root place
      (Program.nests ⟨decls⟩ types) (verifyClasses hierarchy decls types)
      (Site.surveyClasses hierarchy (some tree) all place decls types) (fun _ => []) := by
  induction decls generalizing types place with
  | nil => exact Tracks.pure _ place
  | cons decl decls ih =>
      rcases types with _ | ⟨_ | type, types⟩
      · exact Tracks.pure _ place
      · exact (ih types place).bindSilent fun decls => Tracks.pure (decl :: decls)
      · let site : Site := ⟨⟨hierarchy, type, ""⟩, some tree, ScopeTree.root, []⟩
        have body (child : ScopeId) := checkClass_tracks (site.inside place []) child decl
        have inside := tracks_inside ScopeTree.root (fun child _ => checkClass hierarchy type child decl)
          (fun _ _ => _) (declares_nothing (site.slots place [])) body
        have first : Tracks ⟨⟨hierarchy, current, ""⟩, some tree, ScopeTree.root, []⟩ ScopeTree.root place _ _
          _ (fun _ => []) := Tracks.ofTree rfl (Tracks.around inside)
        exact first.bind fun decl => (ih types (place + 1)).bindSilent fun decls =>
          Tracks.pure (decl :: decls)

/-! ### Building a tree -/

/-- A state in which scopes are open for classes that are still to be typed. -/
structure Awaits (hierarchy : Hierarchy) (all : ClassTypes) (scopes : List ScopeId) (types : List TypeId)
    (state : TypingState) : Prop where
  building : state.cursor = none
  wellFormed : state.tree.WellFormed
  distinct : (ScopeTree.root :: scopes).Nodup
  isRoot : ScopeTree.root < state.tree.nodes.size
  inner : ∀ scope ∈ scopes, scope < state.tree.nodes.size ∧ state.tree.children scope = []
  slots : List.Forall₂ (fun scope type => state.tree.slots scope = Site.attributes hierarchy all type ∧
    state.tree.Sees scope (Site.attributes hierarchy all type)) scopes types

/-- What typing classes has come to, as a survey tells it. -/
structure Builds (survey : Survey (List ClassDecl)) (hierarchy : Hierarchy)
    (declared : ScopeTree → Declarations) (before : TypingState)
    (result : List ClassDecl × TypingState) : Prop where
  value : result.1 = survey.value
  found : result.2.found.toList = before.found.toList ++ survey.diagnostics hierarchy
  wellFormed : result.2.tree.WellFormed
  stage : before.tree.Stage result.2.tree
  root : result.2.tree.children ScopeTree.root = before.tree.children ScopeTree.root
  /-- No variables have been added but those that are declared. -/
  vars : ∀ final, result.2.tree.Stage final → ∀ info ∈ result.2.tree.vars,
    info ∈ before.tree.vars ∨ ∃ entry ∈ declared final, info ∈ entry.2
  declared : ∀ final, result.2.tree.Stage final → ∀ entry ∈ declared final, final.slots entry.1 = entry.2

theorem Awaits.later {hierarchy : Hierarchy} {all : ClassTypes} {scopes : List ScopeId}
    {types : List TypeId} {type : TypeId} {state after : TypingState} {count : Nat}
    (awaits : Awaits hierarchy all (scope :: scopes) (type :: types) state) (building : after.cursor = none)
    (growth : ScopeTree.Growth scope count state.tree after.tree) :
    Awaits hierarchy all scopes types after := by
  obtain ⟨_, wellFormed, distinct, isRoot, inner, slots⟩ := awaits
  obtain ⟨notRoot, distinct⟩ := List.nodup_cons.mp distinct
  obtain ⟨apart, distinct⟩ := List.nodup_cons.mp distinct
  obtain ⟨_, inner⟩ := List.forall_mem_cons.mp inner
  cases slots with
  | cons _ slots =>
      refine ⟨building, growth.wellFormed,
        List.nodup_cons.mpr ⟨fun isLater => notRoot (List.mem_cons_of_mem _ isLater), distinct⟩,
        Nat.lt_of_lt_of_le isRoot growth.stage.size_le, fun other member => ?_, ?_⟩
      · obtain ⟨known, childless⟩ := inner other member
        exact ⟨Nat.lt_of_lt_of_le known growth.stage.size_le,
          (growth.elsewhere other known fun same => apart (same ▸ member)).trans childless⟩
      · refine ((List.forall₂_and_left scopes types).mpr ⟨inner, slots⟩).imp
          fun other type ⟨⟨known, _⟩, same, sees⟩ => ?_
        exact ⟨(growth.stage.slots wellFormed known).trans same, sees.of_stage growth.stage wellFormed known⟩

/-- The first of the classes stands in the first of the scopes, with its attributes in sight. -/
theorem Awaits.stands {hierarchy : Hierarchy} {all : ClassTypes} {scope : ScopeId} {scopes : List ScopeId}
    {types : List TypeId} {type : TypeId} {state : TypingState}
    (awaits : Awaits hierarchy all (scope :: scopes) (type :: types) state) (place : Nat) :
    Stands (Site.ofClass hierarchy none all type place) scope 0 [] state := by
  obtain ⟨known, childless⟩ := awaits.inner scope List.mem_cons_self
  refine ⟨awaits.wellFormed, known, ?_, fun _ => ⟨awaits.building, ?_⟩, nofun⟩
  · cases awaits.slots with
    | cons first _ =>
        change state.tree.Sees scope (Site.attributes hierarchy all type ++ [])
        rw [List.append_nil]
        exact first.2
  · rw [childless]
    rfl

/-- What one class comes to, and then the classes after it, is what all of them come to. -/
theorem Builds.cons {hierarchy : Hierarchy} {all : ClassTypes} {scope : ScopeId} {scopes : List ScopeId}
    {types : List TypeId} {type : TypeId} {place : Nat} {state : TypingState} {decls : Survey (List ClassDecl)}
    {decl : Survey ClassDecl} {inside later : ScopeTree → Declarations} {count : Nat}
    {first : ClassDecl × TypingState} {result : List ClassDecl × TypingState}
    (awaits : Awaits hierarchy all (scope :: scopes) (type :: types) state)
    (one : Tracked (Site.ofClass hierarchy none all type place) scope 0 count [] decl inside state first)
    (rest : Builds decls hierarchy later first.2 result) :
    Builds (decl >>= fun decl => decls >>= fun decls => pure (decl :: decls)) hierarchy
      (fun tree => (scope, Site.attributes hierarchy all type) :: (inside tree ++ later tree)) state
      (first.1 :: result.1, result.2) := by
  obtain ⟨known, _⟩ := awaits.inner scope List.mem_cons_self
  have growth := one.growth rfl
  have notRoot : ScopeTree.root ≠ scope := fun same =>
    (List.nodup_cons.mp awaits.distinct).1 (same ▸ List.mem_cons_self)
  refine ⟨congrArg₂ List.cons one.value rest.value, ?_, rest.wellFormed, growth.stage.trans rest.stage,
    rest.root.trans (growth.elsewhere _ awaits.isRoot notRoot), fun final stage info member => ?_,
    fun final stage entry member => ?_⟩
  · refine rest.found.trans ?_
    rw [one.found, List.append_assoc]
    refine congrArg (state.found.toList ++ ·) (Eq.symm ?_)
    exact (Survey.diagnostics_bind _ _ _).trans (congrArg (_ ++ ·) (Survey.diagnostics_map _ _ _))
  · rcases rest.vars final stage info member with isOld | ⟨entry, isLater, isDeclared⟩
    · rcases one.vars rfl final (rest.stage.trans stage) info isOld with isOld | ⟨entry, isInside, isDeclared⟩
      · exact Or.inl isOld
      · exact Or.inr ⟨entry, List.mem_cons_of_mem _ (List.mem_append_left _ isInside), isDeclared⟩
    · exact Or.inr ⟨entry, List.mem_cons_of_mem _ (List.mem_append_right _ isLater), isDeclared⟩
  · rcases List.mem_cons.mp member with rfl | member
    · refine (((growth.stage.trans rest.stage).trans stage).slots awaits.wellFormed known).trans ?_
      cases awaits.slots with
      | cons first _ => exact first.1
    · rcases List.mem_append.mp member with isInside | isLater
      · exact one.declared rfl final (rest.stage.trans stage) entry isInside
      · exact rest.declared final stage entry isLater

theorem checkClasses_builds (hierarchy : Hierarchy) (all : ClassTypes) (decls : List ClassDecl)
    (types : ClassTypes) (scopes : List ScopeId) (place : Nat) {state : TypingState}
    (awaits : Awaits hierarchy all scopes (types.filterMap id) state) :
    Builds (Site.surveyClasses hierarchy none all place decls types) hierarchy
      (fun tree => declarationsClasses hierarchy all tree decls types scopes) state
      (checkClasses hierarchy decls types scopes state) := by
  have nothing {decls : List ClassDecl} {state : TypingState} (wellFormed : state.tree.WellFormed) :
      Builds ⟨decls, []⟩ hierarchy (fun _ => []) state (decls, state) :=
    ⟨rfl, (List.append_nil _).symm, wellFormed, .refl _, rfl, fun _ _ _ member => Or.inl member,
      fun _ _ _ member => absurd member List.not_mem_nil⟩
  induction decls generalizing types scopes place state with
  | nil =>
      have isSurvey : Site.surveyClasses hierarchy none all place [] types = ⟨[], []⟩ := by
        rcases types with _ | ⟨_ | _, _⟩ <;> rfl
      rw [isSurvey]
      have result : checkClasses hierarchy [] types scopes state = ([], state) := by
        rcases types with _ | ⟨_ | _, _⟩ <;> rfl
      rw [result]
      exact nothing awaits.wellFormed
  | cons decl decls ih =>
      rcases types with _ | ⟨_ | type, types⟩
      · exact nothing awaits.wellFormed
      · obtain ⟨value, found, wellFormed, stage, root, vars, declared⟩ := ih types scopes place awaits
        refine ⟨congrArg (decl :: ·) value, ?_, wellFormed, stage, root, vars, declared⟩
        refine found.trans (congrArg (state.found.toList ++ ·) ?_)
        exact (Survey.diagnostics_map _ _ _).symm
      · obtain _ | ⟨scope, scopes⟩ := scopes
        · cases awaits.slots
        have first := checkClass_tracks _ scope decl [] state (awaits.stands place) nofun
        have later := awaits.later (first.stands.building rfl).1 (first.growth rfl)
        exact Builds.cons awaits first (ih types scopes (place + 1) later)

end Typing

namespace Program

variable (program : Program) (types : ClassTypes) (hierarchy : Hierarchy)

theorem check_builds : Typing.Builds (Site.surveyClasses hierarchy none types 0 program.classes types) hierarchy
    (fun tree => declarationsClasses hierarchy types tree program.classes types
      (ScopeTree.openClasses hierarchy types).1)
    ⟨(ScopeTree.openClasses hierarchy types).2, none, none, #[]⟩
    (Typing.checkClasses hierarchy program.classes types (ScopeTree.openClasses hierarchy types).1
      ⟨(ScopeTree.openClasses hierarchy types).2, none, none, #[]⟩) := by
  have opened := ScopeTree.openClasses_opened hierarchy types
  obtain ⟨isRoot, outermost, bare⟩ := opened.isRoot
  refine Typing.checkClasses_builds hierarchy types program.classes types _ 0
    ⟨rfl, opened.wellFormed, ?_, isRoot, fun scope member => ?_, ?_⟩
  · rw [opened.numbered]
    exact @List.nodup_range' 0 (_ + 1) 1 Nat.zero_lt_one
  · exact ⟨(opened.inner scope member).1, (opened.inner scope member).2.2⟩
  · refine ((List.forall₂_and_left _ _).mpr ⟨opened.inner, opened.slots⟩).imp
      fun scope type ⟨⟨known, isParent, _⟩, slots⟩ => ⟨slots, ?_⟩
    have sees := (ScopeTree.sees_root isRoot outermost).child opened.wellFormed known isParent
    rwa [bare, List.append_nil, slots] at sees

theorem declarations_check : program.declarations types hierarchy (program.check types hierarchy).2.1 =
    declarationsClasses hierarchy types (program.check types hierarchy).2.1 program.classes types
      (ScopeTree.openClasses hierarchy types).1 := by
  have children : (program.check types hierarchy).2.1.children ScopeTree.root =
      (ScopeTree.openClasses hierarchy types).1 :=
    (program.check_builds types hierarchy).root.trans (ScopeTree.openClasses_opened hierarchy types).children
  rw [Program.declarations, children]

/-- Checking finds out what a survey of the program finds, and leaves each variable as it is declared. -/
theorem check_surveyed :
    (program.check types hierarchy).1 = (program.survey types hierarchy none).value ∧
      (program.check types hierarchy).2.2 = (program.survey types hierarchy none).diagnostics hierarchy ∧
      (program.check types hierarchy).2.1.Grounded ∧
      ∀ entry ∈ program.declarations types hierarchy (program.check types hierarchy).2.1,
        (program.check types hierarchy).2.1.slots entry.1 = entry.2 := by
  obtain ⟨isRoot, outermost, bare⟩ := (ScopeTree.openClasses_opened hierarchy types).isRoot
  obtain ⟨value, found, wellFormed, stage, _, _, declared⟩ := program.check_builds types hierarchy
  refine ⟨congrArg Program.mk value, ?_, ⟨wellFormed, Nat.lt_of_lt_of_le isRoot stage.size_le,
    (stage.parents _ isRoot).trans outermost, ?_⟩, fun entry member => ?_⟩
  · exact found.trans (Survey.diagnostics_map _ _ _).symm
  · exact (stage.locals _ isRoot).trans (List.map_eq_nil_iff.mp bare)
  · rw [declarations_check] at member
    exact declared _ (.refl _) entry member

/-- Checking leaves the scopes of classes as they have been opened. -/
theorem check_shares : ∃ own, ScopeTree.SharesAttributes hierarchy types (program.check types hierarchy).2.1 own
    ((program.check types hierarchy).2.1.children ScopeTree.root) := by
  have opened := ScopeTree.openClasses_opened hierarchy types
  have builds := program.check_builds types hierarchy
  have children : (program.check types hierarchy).2.1.children ScopeTree.root =
      (ScopeTree.openClasses hierarchy types).1 := builds.root.trans opened.children
  obtain ⟨own, known, slots, locals⟩ := opened.shared
  rw [children]
  have both := (List.forall₂_and_left _ _).mpr ⟨opened.inner, locals⟩
  refine ⟨own, fun owner id member => Nat.lt_of_lt_of_le (known owner id member) builds.stage.vars_le,
    fun owner => ?_, both.imp fun scope type ⟨inner, locals⟩ => (builds.stage.locals scope inner.1).trans locals⟩
  rw [← slots owner]
  exact List.map_congr_left fun id member => builds.stage.vars id (known owner id member)

/-- The variables of a checked program are those that it declares, and attributes of its classes. -/
theorem mem_vars_check {info : Variable} (member : info ∈ (program.check types hierarchy).2.1.vars) :
    (∃ type, ∃ attr ∈ (hierarchy.info type).attributes, info = .declared attr.name attr.type) ∨
      ∃ entry ∈ program.declarations types hierarchy (program.check types hierarchy).2.1, info ∈ entry.2 := by
  rcases (program.check_builds types hierarchy).vars _ (.refl _) info member with isOpened | isDeclared
  · obtain ⟨type, _, attr, isAttribute, isInfo⟩ := (ScopeTree.openClasses_opened hierarchy types).vars info isOpened
    exact Or.inl ⟨type, attr, isAttribute, isInfo⟩
  · rw [declarations_check]
    exact Or.inr isDeclared

/-- Over a tree that has the scopes of the program, verifying finds out what a survey over the tree finds. -/
theorem verify_surveyed {tree : ScopeTree} (grounded : tree.Grounded)
    (outline : tree.skeleton = Nest.outline (program.nests types)) :
    (program.verify types hierarchy tree).1 = (program.survey types hierarchy (some tree)).value ∧
      (program.verify types hierarchy tree).2.1 =
        (program.survey types hierarchy (some tree)).diagnostics hierarchy := by
  have fits := (Nest.outline_at (program.nests types)).1
  rw [← outline, Nest.at_skeleton, Nest.At] at fits
  have sees := ScopeTree.sees_root grounded.known grounded.outermost
  rw [ScopeTree.slots, grounded.bare, List.map_nil] at sees
  obtain ⟨value, found, _⟩ := Typing.verifyClasses_tracks hierarchy tree types default program.classes types 0
    [] ⟨tree, some .initial, none, #[]⟩
    ⟨grounded.wellFormed, grounded.known, sees, fun building => absurd building (Option.some_ne_none tree),
      fun _ isTree => by cases isTree; exact ⟨rfl, rfl, rfl, _, rfl⟩⟩
    (fun _ isTree => by cases isTree; exact ⟨_, [], (List.append_nil _).symm, fits⟩)
  exact ⟨congrArg Program.mk value, found.trans (Survey.diagnostics_map _ _ _).symm⟩

end Program

end CoolLang
