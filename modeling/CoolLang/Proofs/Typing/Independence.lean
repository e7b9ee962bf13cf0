import CoolLang.Proofs.Inference.Fixpoint
import CoolLang.Proofs.Program.Notes
import CoolLang.Proofs.Typing.Classes

/-!
What a survey does not depend on. The static types that a program has already do not matter
(`Program.survey_untyped`), and neither does a tree in which every variable is as it is declared
(`Program.survey_alone`).
-/

namespace CoolLang

namespace Survey

variable {α β : Type}

/-- What comes after a survey is only made with the value of that. -/
theorem bind_congr {survey : Survey α} {next next' : α → Survey β}
    (same : next survey.value = next' survey.value) : (survey >>= next) = (survey >>= next') := by
  change Survey.mk _ _ = Survey.mk _ _
  rw [same]

/-- Surveys that come to values of which one is told from the other, and to the same reports. -/
structure Agrees (one two : Hierarchy) (same : α → β → Prop) (first : Survey α) (second : Survey β) : Prop where
  value : same first.value second.value
  diagnostics : second.diagnostics two = first.diagnostics one

namespace Agrees

variable {γ δ : Type} {one two : Hierarchy} {same : α → β → Prop} {same' : γ → δ → Prop}
  {first : Survey α} {second : Survey β}

theorem refl (one : Hierarchy) (survey : Survey α) : Agrees one one Eq survey survey :=
  ⟨rfl, rfl⟩

theorem pure {value : α} {value' : β} (told : same value value') :
    Agrees one two same (Pure.pure value) (Pure.pure value') :=
  ⟨told, rfl⟩

theorem bind {next : α → Survey γ} {next' : β → Survey δ} (agrees : Agrees one two same first second)
    (agrees' : ∀ value value', same value value' → Agrees one two same' (next value) (next' value')) :
    Agrees one two same' (first >>= next) (second >>= next') := by
  have after := agrees' _ _ agrees.value
  exact ⟨after.value, by rw [diagnostics_bind, diagnostics_bind, agrees.diagnostics, after.diagnostics]⟩

end Agrees

end Survey

namespace Site

/-! ### Static types -/

theorem typed_untyped (note : Note) (type : TypeId) : note.untyped.typed type = note.typed type :=
  rfl

theorem position_untyped (note : Note) : note.untyped.position = note.position :=
  rfl

mutual

theorem survey_untyped (site : Site) (place : Nat) : (expr : Expr) →
    site.survey place expr.untyped = site.survey place expr
  | .integer .. | .string .. | .boolean .. | .identifier .. | .new .. => by
      simp only [Expr.untyped, survey, typed_untyped, position_untyped]
  | .assign _ _ value => by
      simp only [Expr.untyped, survey, typed_untyped, survey_untyped site _ value]
  | .dispatch _ receiver _ _ args => by
      simp only [Expr.untyped, survey, typed_untyped, Expr.nestsOption_untyped, Expr.length_untypedAll,
        surveyReceiver_untyped site _ receiver, surveyArgs_untyped site _ args]
  | .cond _ test yes no => by
      simp only [Expr.untyped, survey, typed_untyped, Expr.nests_untyped, survey_untyped site _ test,
        survey_untyped site _ yes, survey_untyped site _ no]
  | .loop _ test body => by
      simp only [Expr.untyped, survey, typed_untyped, Expr.nests_untyped, survey_untyped site _ test,
        survey_untyped site _ body]
  | .block _ body => by
      simp only [Expr.untyped, survey, typed_untyped, surveyAll_untyped _ _ _ body]
  | .letIn _ bindings body => by
      simp only [Expr.untyped, survey, typed_untyped, fun inner place => survey_untyped inner place body,
        surveyBindings_untyped site _ bindings]
  | .caseOf _ scrutinee branches => by
      simp only [Expr.untyped, survey, typed_untyped, Expr.nests_untyped, survey_untyped site _ scrutinee,
        surveyBranches_untyped site _ _ _ branches]
  | .isVoid _ operand | .not _ operand | .complement _ operand => by
      simp only [Expr.untyped, survey, typed_untyped, survey_untyped site _ operand]
  | .binary _ _ left right => by
      simp only [Expr.untyped, survey, typed_untyped, position_untyped, Expr.nests_untyped,
        survey_untyped site _ left, survey_untyped site _ right]

theorem surveyReceiver_untyped (site : Site) (place : Nat) : (receiver : Option Expr) →
    site.surveyReceiver place (Expr.untypedOption receiver) = site.surveyReceiver place receiver
  | none => rfl
  | some receiver => by simp only [Expr.untypedOption, surveyReceiver, survey_untyped site _ receiver]

theorem surveyArgs_untyped (site : Site) (place : Nat) : (args : List Expr) → (params : List Variable) →
    site.surveyArgs place (Expr.untypedAll args) params = site.surveyArgs place args params
  | [], _ => rfl
  | arg :: args, params => by
      simp only [Expr.untypedAll, surveyArgs, Expr.nests_untyped, survey_untyped site _ arg,
        surveyArgs_untyped site _ args]

theorem surveyAll_untyped (site : Site) (place : Nat) (last : TypeId) : (exprs : List Expr) →
    site.surveyAll place last (Expr.untypedAll exprs) = site.surveyAll place last exprs
  | [] => rfl
  | expr :: exprs => by
      simp only [Expr.untypedAll, surveyAll, Expr.nests_untyped, survey_untyped site _ expr,
        surveyAll_untyped site _ _ exprs]

theorem surveyBindings_untyped (site : Site) (place : Nat) {body : Site → Nat → Survey (Expr × TypeId)} :
    (bindings : List (Binding Expr)) →
    site.surveyBindings place (Expr.untypedBindings bindings) body = site.surveyBindings place bindings body
  | [] => rfl
  | ⟨_, _, init⟩ :: bindings => by
      simp only [Expr.untypedBindings, surveyBindings, Expr.nestsOption_untyped, surveyInit_untyped site _ init,
        surveyBindings_untyped _ _ bindings]

theorem surveyInit_untyped (site : Site) (place : Nat) : (init : Option Expr) →
    site.surveyInit place (Expr.untypedOption init) = site.surveyInit place init
  | none => rfl
  | some init => by simp only [Expr.untypedOption, surveyInit, survey_untyped site _ init]

theorem surveyBranches_untyped (site : Site) (place : Nat) (seen : List TypeId) (type : Option TypeId) :
    (branches : List (Branch Expr)) →
    site.surveyBranches place seen type (Expr.untypedBranches branches) =
      site.surveyBranches place seen type branches
  | [] => rfl
  | ⟨_, _, body⟩ :: branches => by
      simp only [Expr.untypedBranches, surveyBranches, survey_untyped _ _ body,
        surveyBranches_untyped site _ _ _ branches]

end

theorem surveyFeature_untyped (site : Site) (place : Nat) (feature : Feature) :
    Survey.Agrees site.hierarchy site.hierarchy Eq (site.surveyFeature place feature)
      (site.surveyFeature place feature.untyped) := by
  rcases feature with ⟨name, written, _ | init⟩ | ⟨name, params, result, body⟩
  · exact .refl _ _
  · have same (inner : Site) : Survey.Agrees site.hierarchy site.hierarchy Eq
        (inner.surveyAttribute ⟨name, written, some init⟩)
        (inner.surveyAttribute ⟨name, written, some init.untyped⟩) := by
      unfold surveyAttribute
      simp only [survey_untyped]
      exact (Survey.Agrees.refl _ _).bind fun _ _ isSame => by
        cases isSame
        exact Survey.Agrees.bind ⟨rfl, rfl⟩ fun _ _ _ => .pure rfl
    exact (same _).bind fun _ _ isSame => .pure (congrArg Feature.attribute isSame)
  · have same (inner : Site) : Survey.Agrees site.hierarchy site.hierarchy Eq
        (inner.surveyMethod ⟨name, params, result, body⟩)
        (inner.surveyMethod ⟨name, params, result, body.untyped⟩) := by
      unfold surveyMethod
      simp only [survey_untyped]
      exact (Survey.Agrees.refl _ _).bind fun _ _ isSame => by
        cases isSame
        exact Survey.Agrees.bind ⟨rfl, rfl⟩ fun _ _ _ => .pure rfl
    exact (same _).bind fun _ _ isSame => .pure (congrArg Feature.method isSame)

theorem surveyFeatures_untyped (site : Site) (place : Nat) (features : List Feature) :
    Survey.Agrees site.hierarchy site.hierarchy Eq (site.surveyFeatures place features)
      (site.surveyFeatures place (features.map Feature.untyped)) := by
  induction features generalizing place with
  | nil => exact .refl _ _
  | cons feature features ih =>
      exact (surveyFeature_untyped site place feature).bind fun _ _ first =>
        (ih (place + 1)).bind fun _ _ later => .pure (congrArg₂ List.cons first later)

theorem surveyClasses_untyped (hierarchy : Hierarchy) (tree : Option ScopeTree) (all : ClassTypes)
    (place : Nat) (decls : List ClassDecl) (types : ClassTypes) :
    Survey.Agrees hierarchy hierarchy Eq (surveyClasses hierarchy tree all place decls types)
      (surveyClasses hierarchy tree all place (Inference.untypedClasses decls types) types) := by
  induction decls generalizing types place with
  | nil => exact .refl _ _
  | cons decl decls ih =>
      rcases types with _ | ⟨_ | type, types⟩
      · exact .refl _ _
      · exact (ih place types).bind fun _ _ later => .pure (congrArg (decl :: ·) later)
      · have same : Survey.Agrees hierarchy hierarchy Eq
            (surveyClass (ofClass hierarchy tree all type place) decl)
            (surveyClass (ofClass hierarchy tree all type place) decl.untyped) :=
          (surveyFeatures_untyped (ofClass hierarchy tree all type place) 0 decl.features).bind
            fun _ _ isSame => .pure (congrArg (fun features => { decl with features := features }) isSame)
        exact same.bind fun _ _ first => (ih (place + 1) types).bind fun _ _ later =>
          .pure (congrArg₂ List.cons first later)

/-! ### Trees -/

variable {tree : ScopeTree}

/-- The site without its tree. -/
def alone (site : Site) : Site :=
  { site with tree := none, scope := ScopeTree.root }

theorem slots_of_declared {site : Site} {place : Nat} {written : List Variable} (isTree : site.tree = some tree)
    (declared : tree.slots (tree.child site.scope place) = written) : site.slots place written = written := by
  rw [slots, child, isTree]
  exact declared

/-- Where variables are as they are declared, it makes no difference whether they are found in a tree. -/
theorem inside_alone {site : Site} {place : Nat} {written : List Variable} (isTree : site.tree = some tree)
    (declared : tree.slots (tree.child site.scope place) = written) :
    (site.inside place written).alone = site.alone.inside place written := by
  rw [inside, slots_of_declared isTree declared]
  rfl

/-- The scope inside a site, in its tree. -/
theorem scope_inside {site : Site} {place : Nat} (isTree : site.tree = some tree) (written : List Variable) :
    (site.inside place written).scope = tree.child site.scope place := by
  rw [inside, child, isTree]
  rfl

/-- Whether the variables of scopes are as they are declared. -/
def Declared (tree : ScopeTree) (declarations : Declarations) : Prop :=
  ∀ entry ∈ declarations, tree.slots entry.1 = entry.2

theorem Declared.append {one two : Declarations} (declared : Declared tree (one ++ two)) :
    Declared tree one ∧ Declared tree two :=
  List.forall_mem_append.mp declared

theorem Declared.cons {entry : ScopeId × List Variable} {later : Declarations}
    (declared : Declared tree (entry :: later)) :
    tree.slots entry.1 = entry.2 ∧ Declared tree later :=
  List.forall_mem_cons.mp declared

mutual

theorem survey_alone (site : Site) (isTree : site.tree = some tree) (place : Nat) : (expr : Expr) →
    Declared tree (site.declarations tree site.scope place expr) →
    site.survey place expr = site.alone.survey place expr
  | .integer .., _ | .string .., _ | .boolean .., _ => by simp only [survey]
  | .identifier .., _ | .new .., _ => by
      simp only [survey]
      rfl
  | .assign _ _ value, declared => by
      rw [Surroundings.declarations] at declared
      simp only [survey, survey_alone site isTree _ value declared]
      rfl
  | .dispatch _ receiver _ _ args, declared => by
      rw [Surroundings.declarations] at declared
      simp only [survey, surveyReceiver_alone site isTree _ receiver declared.append.1,
        surveyArgs_alone site isTree _ args declared.append.2]
      rfl
  | .cond _ test yes no, declared => by
      rw [Surroundings.declarations] at declared
      obtain ⟨ofTest, declared⟩ := declared.append
      simp only [survey, survey_alone site isTree _ test ofTest, survey_alone site isTree _ yes declared.append.1,
        survey_alone site isTree _ no declared.append.2]
      rfl
  | .loop _ test body, declared => by
      rw [Surroundings.declarations] at declared
      simp only [survey, survey_alone site isTree _ test declared.append.1,
        survey_alone site isTree _ body declared.append.2]
  | .block _ body, declared => by
      rw [Surroundings.declarations] at declared
      obtain ⟨slots, declared⟩ := declared.cons
      rw [← scope_inside isTree []] at declared
      simp only [survey, surveyAll_alone (site.inside place []) isTree _ _ body declared,
        inside_alone isTree slots]
  | .letIn _ bindings body, declared => by
      rw [Surroundings.declarations] at declared
      simp only [survey]
      rw [surveyBindings_alone site isTree place (fun inner isTree around place declared =>
        survey_alone inner isTree place body (around ▸ declared)) bindings declared]
  | .caseOf _ scrutinee branches, declared => by
      rw [Surroundings.declarations] at declared
      simp only [survey, survey_alone site isTree _ scrutinee declared.append.1,
        surveyBranches_alone site isTree _ _ _ branches declared.append.2]
  | .isVoid _ operand, declared | .not _ operand, declared | .complement _ operand, declared => by
      rw [Surroundings.declarations] at declared
      simp only [survey, survey_alone site isTree _ operand declared]
  | .binary _ _ left right, declared => by
      rw [Surroundings.declarations] at declared
      simp only [survey, survey_alone site isTree _ left declared.append.1,
        survey_alone site isTree _ right declared.append.2]
      rfl

theorem surveyReceiver_alone (site : Site) (isTree : site.tree = some tree) (place : Nat) :
    (receiver : Option Expr) → Declared tree (site.declarationsOption tree site.scope place receiver) →
    site.surveyReceiver place receiver = site.alone.surveyReceiver place receiver
  | none, _ => rfl
  | some receiver, declared => by
      rw [Surroundings.declarationsOption] at declared
      simp only [surveyReceiver, survey_alone site isTree _ receiver declared]

theorem surveyArgs_alone (site : Site) (isTree : site.tree = some tree) (place : Nat) :
    (args : List Expr) → Declared tree (site.declarationsAll tree site.scope place args) →
    ∀ params, site.surveyArgs place args params = site.alone.surveyArgs place args params
  | [], _ => fun _ => rfl
  | arg :: args, declared => fun params => by
      rw [Surroundings.declarationsAll] at declared
      simp only [surveyArgs, survey_alone site isTree _ arg declared.append.1,
        surveyArgs_alone site isTree _ args declared.append.2]

theorem surveyAll_alone (site : Site) (isTree : site.tree = some tree) (place : Nat) (last : TypeId) :
    (exprs : List Expr) → Declared tree (site.declarationsAll tree site.scope place exprs) →
    site.surveyAll place last exprs = site.alone.surveyAll place last exprs
  | [], _ => rfl
  | expr :: exprs, declared => by
      rw [Surroundings.declarationsAll] at declared
      simp only [surveyAll, survey_alone site isTree _ expr declared.append.1,
        surveyAll_alone site isTree _ _ exprs declared.append.2]

/-- The body stands at any site around which the same is known. -/
theorem surveyBindings_alone (site : Site) (isTree : site.tree = some tree) (place : Nat)
    {body : Site → Nat → Survey (Expr × TypeId)} {ofBody : ScopeId → Nat → Declarations}
    (same : ∀ inner : Site, inner.tree = some tree → inner.toSurroundings = site.toSurroundings → ∀ place,
      Declared tree (ofBody inner.scope place) → body inner place = body inner.alone place) :
    (bindings : List (Binding Expr)) →
    Declared tree (site.declarationsBindings tree site.scope place bindings ofBody) →
    site.surveyBindings place bindings body = site.alone.surveyBindings place bindings body
  | [], declared => by
      rw [Surroundings.declarationsBindings] at declared
      simp only [surveyBindings, same site isTree rfl place declared]
  | ⟨name, written, init⟩ :: bindings, declared => by
      rw [Surroundings.declarationsBindings] at declared
      obtain ⟨ofInit, declared⟩ := declared.append
      obtain ⟨slots, declared⟩ := declared.cons
      rw [Surroundings.bindingVariable, ← Typing.bindingType_value] at slots
      rw [← scope_inside isTree [.declared name.name (site.bindingType written).value]] at declared
      simp only [surveyBindings, surveyInit_alone site isTree _ init ofInit]
      refine Survey.bind_congr (Survey.bind_congr ?_)
      have rest := surveyBindings_alone (site.inside (place + (Expr.nestsOption init).length)
        [.declared name.name (site.bindingType written).value]) isTree 0 same bindings declared
      rw [inside_alone isTree slots] at rest
      simp only [slots_of_declared isTree slots, rest]
      rfl

theorem surveyInit_alone (site : Site) (isTree : site.tree = some tree) (place : Nat) :
    (init : Option Expr) → Declared tree (site.declarationsOption tree site.scope place init) →
    site.surveyInit place init = site.alone.surveyInit place init
  | none, _ => rfl
  | some init, declared => by
      rw [Surroundings.declarationsOption] at declared
      simp only [surveyInit, survey_alone site isTree _ init declared]

theorem surveyBranches_alone (site : Site) (isTree : site.tree = some tree) (place : Nat) (seen : List TypeId)
    (type : Option TypeId) : (branches : List (Branch Expr)) →
    Declared tree (site.declarationsBranches tree site.scope place branches) →
    site.surveyBranches place seen type branches = site.alone.surveyBranches place seen type branches
  | [], _ => rfl
  | ⟨name, written, body⟩ :: branches, declared => by
      rw [Surroundings.declarationsBranches] at declared
      obtain ⟨slots, declared⟩ := declared.cons
      obtain ⟨ofBody, ofLater⟩ := declared.append
      rw [Surroundings.branchVariable, ← Typing.branchType_value seen] at slots
      rw [← scope_inside isTree [.declared name.name (site.branchType seen written).value.1]] at ofBody
      simp only [surveyBranches]
      refine Survey.bind_congr ?_
      have inside := survey_alone (site.inside place [.declared name.name (site.branchType seen written).value.1])
        isTree 0 body ofBody
      rw [inside_alone isTree slots] at inside
      have later (seen : List TypeId) (type : Option TypeId) :=
        surveyBranches_alone site isTree (place + 1) seen type branches ofLater
      simp only [inside, later]
      rfl

end

theorem surveyAttribute_alone (site : Site) (isTree : site.tree = some tree) (decl : AttributeDecl)
    (declared : Declared tree (site.declarationsOption tree site.scope 0 decl.init)) :
    site.surveyAttribute decl = site.alone.surveyAttribute decl := by
  unfold surveyAttribute
  cases isInit : decl.init with
  | none => rfl
  | some init =>
      rw [isInit, Surroundings.declarationsOption] at declared
      simp only [survey_alone site isTree 0 init declared]
      rfl

theorem surveyMethod_alone (site : Site) (isTree : site.tree = some tree) (decl : MethodDecl)
    (declared : Declared tree (site.declarations tree site.scope 0 decl.body)) :
    site.surveyMethod decl = site.alone.surveyMethod decl := by
  unfold surveyMethod
  simp only [survey_alone site isTree 0 decl.body declared]
  rfl

theorem surveyFeature_alone (site : Site) (isTree : site.tree = some tree) (place : Nat) (feature : Feature)
    (declared : Declared tree (site.declarationsFeature tree site.scope place feature)) :
    site.surveyFeature place feature = site.alone.surveyFeature place feature := by
  obtain ⟨slots, declared⟩ := declared.cons
  have inside := inside_alone isTree slots
  have scope : (site.inside place (site.featureVariables feature)).scope = tree.child site.scope place :=
    scope_inside isTree _
  rcases feature with decl | decl
  · let inner : Site := { site.inside place (site.featureVariables (.attribute decl)) with feature := decl.name.name }
    have isAlone : inner.alone = { site.alone.inside place (site.featureVariables (.attribute decl)) with
        feature := decl.name.name } := congrArg (fun site : Site => { site with feature := decl.name.name }) inside
    have same := surveyAttribute_alone inner isTree decl (scope.symm ▸ declared)
    rw [isAlone] at same
    exact congrArg (· >>= fun decl => pure (Feature.attribute decl)) same
  · let inner : Site := { site.inside place (site.featureVariables (.method decl)) with feature := decl.name.name }
    have isAlone : inner.alone = { site.alone.inside place (site.featureVariables (.method decl)) with
        feature := decl.name.name } := congrArg (fun site : Site => { site with feature := decl.name.name }) inside
    have same := surveyMethod_alone inner isTree decl (scope.symm ▸ declared)
    rw [isAlone] at same
    exact congrArg (· >>= fun decl => pure (Feature.method decl)) same

theorem surveyFeatures_alone (site : Site) (isTree : site.tree = some tree) (place : Nat) (features : List Feature)
    (declared : Declared tree (site.declarationsFeatures tree site.scope place features)) :
    site.surveyFeatures place features = site.alone.surveyFeatures place features := by
  induction features generalizing place with
  | nil => rfl
  | cons feature features ih =>
      simp only [surveyFeatures, surveyFeature_alone site isTree place feature declared.append.1,
        ih (place + 1) declared.append.2]

theorem surveyClasses_alone (hierarchy : Hierarchy) (all : ClassTypes) (place : Nat) (decls : List ClassDecl)
    (types : ClassTypes) {scopes : List ScopeId}
    (left : (tree.children ScopeTree.root).drop place = scopes)
    (enough : (types.filterMap id).length ≤ scopes.length)
    (declared : Declared tree (declarationsClasses hierarchy all tree decls types scopes)) :
    surveyClasses hierarchy (some tree) all place decls types = surveyClasses hierarchy none all place decls types := by
  induction decls generalizing types place scopes with
  | nil => rcases types with _ | ⟨_ | _, _⟩ <;> rfl
  | cons decl decls ih =>
      rcases types with _ | ⟨_ | type, types⟩
      · rfl
      · simp only [surveyClasses, ih place types left enough declared]
      · obtain _ | ⟨scope, scopes⟩ := scopes
        · exact absurd enough (Nat.not_succ_le_zero _)
        obtain ⟨slots, declared⟩ := declared.cons
        obtain ⟨isNext, rest⟩ := next_of_drop left
        have isChild := ScopeTree.child_of_getElem? isNext
        have isAlone : (ofClass hierarchy (some tree) all type place).alone = ofClass hierarchy none all type place :=
          inside_alone rfl (isChild.symm ▸ slots)
        have scopeOf : (ofClass hierarchy (some tree) all type place).scope = scope := (scope_inside rfl _).trans isChild
        have first := surveyFeatures_alone (ofClass hierarchy (some tree) all type place) rfl 0 decl.features
          (scopeOf.symm ▸ declared.append.1)
        rw [isAlone] at first
        simp only [surveyClasses, surveyClass, first,
          ih (place + 1) types rest (Nat.le_of_succ_le_succ enough) declared.append.2]

end Site

/-- A survey finds the same static types, whatever types the classes have already. -/
theorem Program.survey_of_untyped {one two : Program} {types : ClassTypes} (hierarchy : Hierarchy)
    (tree : Option ScopeTree)
    (same : Inference.untypedClasses one.classes types = Inference.untypedClasses two.classes types) :
    (one.survey types hierarchy tree).value = (two.survey types hierarchy tree).value ∧
      (one.survey types hierarchy tree).diagnostics hierarchy =
        (two.survey types hierarchy tree).diagnostics hierarchy := by
  have told (program : Program) : Survey.Agrees hierarchy hierarchy Eq (program.survey types hierarchy tree)
      ((Program.mk (Inference.untypedClasses program.classes types)).survey types hierarchy tree) :=
    (Site.surveyClasses_untyped hierarchy tree types 0 program.classes types).bind fun _ _ isSame =>
      .pure (congrArg Program.mk isSame)
  have ofOne := told one
  rw [same] at ofOne
  exact ⟨ofOne.value.trans (told two).value.symm, ofOne.diagnostics.symm.trans (told two).diagnostics⟩

theorem Typing.checkClasses_untyped (hierarchy : Hierarchy) (decls : List ClassDecl) (types : ClassTypes)
    (scopes : List ScopeId) (state : TypingState) :
    Inference.untypedClasses (checkClasses hierarchy decls types scopes state).1 types =
      Inference.untypedClasses decls types := by
  induction decls generalizing types scopes state with
  | nil => rcases types with _ | ⟨_ | _, _⟩ <;> rfl
  | cons decl decls ih =>
      rcases types with _ | ⟨_ | type, types⟩
      · rfl
      · exact congrArg (decl :: ·) (ih types scopes state)
      · rcases scopes with _ | ⟨scope, scopes⟩
        · rfl
        · exact congrArg₂ List.cons (checkClass_performs hierarchy type scope decl state).2 (ih types scopes _)

/-- A tree in which all variables are as they are declared makes no difference. -/
theorem Program.survey_alone {program : Program} {types : ClassTypes} {hierarchy : Hierarchy} {tree : ScopeTree}
    (enough : (types.filterMap id).length = (tree.children ScopeTree.root).length)
    (declared : Site.Declared tree (program.declarations types hierarchy tree)) :
    program.survey types hierarchy (some tree) = program.survey types hierarchy none := by
  have same := Site.surveyClasses_alone hierarchy types 0 program.classes types List.drop_zero (Nat.le_of_eq enough)
    declared
  rw [survey, same]
  rfl

end CoolLang
