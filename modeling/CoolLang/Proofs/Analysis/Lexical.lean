import CoolLang.Proofs.Analysis.Naming
import CoolLang.Proofs.Analysis.WellTyped

/-!
Names resolve lexically. That a survey over a tree accounts for the names of an expression is by induction on the
expression (`Site.survey_accounts`). In the scope of a class, a name means the attribute that the hierarchy finds for
it, in the scope of its owner (`Analysis.Shares.local?_class`). So in the classes that are checked each name means what
its innermost binder binds it to, and a name that has none is reported (`Analysis.names_resolve`). Nothing is reported
of a class that is not checked (`Program.unbound_unreported`).
-/

namespace CoolLang

namespace Site

open Survey

variable {analysis : Analysis}

/-! ### Expressions -/

mutual

theorem survey_accounts {site : Site} {vantage : Vantage} (views : analysis.Views site vantage) (place : Nat) :
    (expr : Expr) → site.Fits place expr.nests →
    analysis.tree.Names (site.declarations analysis.tree site.scope place expr) →
    Accounts analysis [] expr.TypedAs (fun typed => vantage.uses analysis.tree place typed.1) (site.survey place expr)
  | .integer .., _, _ | .string .., _, _ | .boolean .., _, _ => by
      simp only [survey]
      exact .pure ⟨rfl, rfl⟩ (by simp only [Vantage.uses])
  | .identifier note name, _, _ => by
      simp only [survey]
      refine (typeOfName_accounts views note name).bind fun type _ => ?_
      exact .pure ⟨rfl, rfl⟩ (by simp only [Vantage.uses]; rfl)
  | .new note written, _, _ => by
      simp only [survey]
      refine .bindNameless (nameless_newType written) ?_
      exact .pure ⟨rfl, rfl⟩ (by simp only [Vantage.uses])
  | .assign note target value, fits, names => by
      rw [Surroundings.declarations] at names
      rw [Expr.nests] at fits
      simp only [survey]
      refine (survey_accounts views place value fits names).bind fun ⟨typed, type⟩ ⟨nests, isType⟩ => ?_
      refine (surveyTarget_accounts views target type typed.position).bind fun _ _ => ?_
      exact .pure ⟨by simp only [Expr.nests, nests], rfl⟩ (by simp only [Vantage.uses, isType, List.nil_append])
  | .dispatch note receiver cast method args, fits, names => by
      rw [Surroundings.declarations] at names
      rw [Expr.nests] at fits
      simp only [survey]
      refine (surveyReceiver_accounts views place receiver fits.split.1 names.append.1).bind
        fun ⟨receiver', receiverType⟩ nests => ?_
      refine .bindNameless (nameless_dispatchType _ _) (.bindNameless (nameless_callee _ _ _) ?_)
      refine (surveyArgs_accounts views _ args _ fits.split.2 names.append.2).bind fun args' nests' => ?_
      exact .pure ⟨by simp only [Expr.nests, nests, nests'], rfl⟩
        (by simp only [Vantage.uses, nests, List.nil_append])
  | .cond note test yes no, fits, names => by
      rw [Surroundings.declarations] at names
      rw [Expr.nests] at fits
      simp only [survey]
      refine (survey_accounts views place test fits.split.1 names.append.1).bind fun ⟨test', testType⟩ ⟨nests, _⟩ => ?_
      refine .bindNameless (.flow _ _ _ _) ?_
      refine (survey_accounts views _ yes fits.split.2.split.1 names.append.2.append.1).bind
        fun ⟨yes', yesType⟩ ⟨nests', _⟩ => ?_
      refine (survey_accounts views _ no fits.split.2.split.2 names.append.2.append.2).bind
        fun ⟨no', noType⟩ ⟨nests'', _⟩ => ?_
      exact .pure ⟨by simp only [Expr.nests, nests, nests', nests''], rfl⟩
        (by simp only [Vantage.uses, nests, nests', List.nil_append, List.append_assoc])
  | .loop note test body, fits, names => by
      rw [Surroundings.declarations] at names
      rw [Expr.nests] at fits
      simp only [survey]
      refine (survey_accounts views place test fits.split.1 names.append.1).bind fun ⟨test', testType⟩ ⟨nests, _⟩ => ?_
      refine .bindNameless (.flow _ _ _ _) ?_
      refine (survey_accounts views _ body fits.split.2 names.append.2).bind fun ⟨body', bodyType⟩ ⟨nests', _⟩ => ?_
      exact .pure ⟨by simp only [Expr.nests, nests, nests'], rfl⟩
        (by simp only [Vantage.uses, nests, List.nil_append])
  | .block note body, fits, names => by
      rw [Surroundings.declarations] at names
      rw [Expr.nests] at fits
      simp only [survey]
      obtain ⟨named, names⟩ := names.cons
      obtain ⟨inner, fits⟩ := views.inside fits [] named
      rw [← scope_inside views.isTree []] at names
      refine (surveyAll_accounts inner 0 .object body fits names).bind fun ⟨body', type⟩ nests => ?_
      exact .pure ⟨by simp only [Expr.nests, nests], rfl⟩ (by simp only [Vantage.uses]; rfl)
  | .letIn note bindings body, fits, names => by
      rw [Surroundings.declarations] at names
      rw [Expr.nests] at fits
      simp only [survey]
      refine (surveyBindings_accounts views place (fun inner around vantage views place fits names =>
        survey_accounts views place body fits (around ▸ names)) bindings fits names).bind
          fun ⟨bindings', body', type⟩ ⟨nests, isType⟩ => ?_
      exact .pure ⟨by simp only [Expr.nests, nests], rfl⟩ (by simp only [Vantage.uses]; rfl)
  | .caseOf note scrutinee branches, fits, names => by
      rw [Surroundings.declarations] at names
      rw [Expr.nests] at fits
      simp only [survey]
      refine (survey_accounts views place scrutinee fits.split.1 names.append.1).bind
        fun ⟨scrutinee', _⟩ ⟨nests, _⟩ => ?_
      refine (surveyBranches_accounts views _ [] none branches fits.split.2 names.append.2).bind
        fun ⟨branches', type⟩ nests' => ?_
      exact .pure ⟨by simp only [Expr.nests, nests, nests'], rfl⟩
        (by simp only [Vantage.uses, nests, List.nil_append])
  | .isVoid note operand, fits, names => by
      rw [Surroundings.declarations] at names
      rw [Expr.nests] at fits
      simp only [survey]
      refine (survey_accounts views place operand fits names).bind fun ⟨operand', type⟩ ⟨nests, _⟩ => ?_
      exact .pure ⟨by simp only [Expr.nests, nests], rfl⟩ (by simp only [Vantage.uses, List.nil_append])
  | .not note operand, fits, names | .complement note operand, fits, names => by
      rw [Surroundings.declarations] at names
      rw [Expr.nests] at fits
      simp only [survey]
      refine (survey_accounts views place operand fits names).bind fun ⟨operand', type⟩ ⟨nests, _⟩ => ?_
      refine .bindNameless (.flow _ _ _ _) ?_
      exact .pure ⟨by simp only [Expr.nests, nests], rfl⟩ (by simp only [Vantage.uses, List.nil_append])
  | .binary note operator left right, fits, names => by
      rw [Surroundings.declarations] at names
      rw [Expr.nests] at fits
      simp only [survey]
      refine (survey_accounts views place left fits.split.1 names.append.1).bind fun ⟨left', leftType⟩ ⟨nests, _⟩ => ?_
      refine (survey_accounts views _ right fits.split.2 names.append.2).bind fun ⟨right', rightType⟩ ⟨nests', _⟩ => ?_
      have later : Accounts analysis (vantage.uses analysis.tree place left' ++
            vantage.uses analysis.tree (place + left.nests.length) right')
          (Expr.binary note operator left right).TypedAs (fun typed => vantage.uses analysis.tree place typed.1)
          (pure (.binary (note.typed operator.resultType) operator left' right', operator.resultType)) :=
        .pure ⟨by simp only [Expr.nests, nests, nests'], rfl⟩ (by simp only [Vantage.uses, nests])
      split
      · exact .bindNameless (.fault rfl) later
      · exact .bindNameless (.pure _) later

theorem surveyReceiver_accounts {site : Site} {vantage : Vantage} (views : analysis.Views site vantage) (place : Nat) :
    (receiver : Option Expr) → site.Fits place (Expr.nestsOption receiver) →
    analysis.tree.Names (site.declarationsOption analysis.tree site.scope place receiver) →
    Accounts analysis [] (fun typed => Expr.nestsOption typed.1 = Expr.nestsOption receiver)
      (fun typed => vantage.usesOption analysis.tree place typed.1) (site.surveyReceiver place receiver)
  | none, _, _ => .pure rfl (by simp only [Vantage.usesOption])
  | some receiver, fits, names => by
      rw [Surroundings.declarationsOption] at names
      rw [Expr.nestsOption] at fits
      simp only [surveyReceiver]
      refine (survey_accounts views place receiver fits names).bind fun ⟨receiver', type⟩ ⟨nests, _⟩ => ?_
      exact .pure (by simp only [Expr.nestsOption, nests]) (by simp only [Vantage.usesOption, List.nil_append])

theorem surveyArgs_accounts {site : Site} {vantage : Vantage} (views : analysis.Views site vantage) (place : Nat) :
    (args : List Expr) → (params : List Variable) → site.Fits place (Expr.nestsAll args) →
    analysis.tree.Names (site.declarationsAll analysis.tree site.scope place args) →
    Accounts analysis [] (fun typed => Expr.nestsAll typed = Expr.nestsAll args)
      (fun typed => vantage.usesAll analysis.tree place typed) (site.surveyArgs place args params)
  | [], _, _, _ => by
      simp only [surveyArgs]
      exact .pure rfl (by simp only [Vantage.usesAll])
  | arg :: args, params, fits, names => by
      rw [Surroundings.declarationsAll] at names
      rw [Expr.nestsAll] at fits
      simp only [surveyArgs]
      refine (survey_accounts views place arg fits.split.1 names.append.1).bind fun ⟨arg', type⟩ ⟨nests, _⟩ => ?_
      have later : Accounts analysis (vantage.uses analysis.tree place arg')
          (fun typed => Expr.nestsAll typed = Expr.nestsAll (arg :: args))
          (fun typed => vantage.usesAll analysis.tree place typed) (do
            let args ← site.surveyArgs (place + arg.nests.length) args params.tail
            return arg' :: args) := by
        refine (surveyArgs_accounts views _ args params.tail fits.split.2 names.append.2).bind fun args' nests' => ?_
        exact .pure (by simp only [Expr.nestsAll, nests, nests']) (by simp only [Vantage.usesAll, nests])
      cases params.head? with
      | none => exact later
      | some param => exact .bindNameless (.flow _ _ _ _) later

theorem surveyAll_accounts {site : Site} {vantage : Vantage} (views : analysis.Views site vantage) (place : Nat)
    (last : TypeId) : (exprs : List Expr) → site.Fits place (Expr.nestsAll exprs) →
    analysis.tree.Names (site.declarationsAll analysis.tree site.scope place exprs) →
    Accounts analysis [] (fun typed => Expr.nestsAll typed.1 = Expr.nestsAll exprs)
      (fun typed => vantage.usesAll analysis.tree place typed.1) (site.surveyAll place last exprs)
  | [], _, _ => by
      simp only [surveyAll]
      exact .pure rfl (by simp only [Vantage.usesAll])
  | expr :: exprs, fits, names => by
      rw [Surroundings.declarationsAll] at names
      rw [Expr.nestsAll] at fits
      simp only [surveyAll]
      refine (survey_accounts views place expr fits.split.1 names.append.1).bind fun ⟨expr', type⟩ ⟨nests, _⟩ => ?_
      refine (surveyAll_accounts views _ type exprs fits.split.2 names.append.2).bind fun ⟨exprs', last⟩ nests' => ?_
      exact .pure (by simp only [Expr.nestsAll, nests, nests'])
        (by simp only [Vantage.usesAll, nests, List.nil_append])

/-- The body stands at any site inside the bindings. -/
theorem surveyBindings_accounts {site : Site} {vantage : Vantage} (views : analysis.Views site vantage) (place : Nat)
    {body : Expr} {ofBody : ScopeId → Nat → Declarations}
    (accounts : ∀ inner : Site, inner.toSurroundings = site.toSurroundings → ∀ vantage, analysis.Views inner vantage →
      ∀ place, inner.Fits place body.nests → analysis.tree.Names (ofBody inner.scope place) →
      Accounts analysis [] body.TypedAs (fun typed => vantage.uses analysis.tree place typed.1)
        (inner.survey place body)) :
    (bindings : List (Binding Expr)) → site.Fits place (Expr.nestsBindings body.nests bindings) →
    analysis.tree.Names (site.declarationsBindings analysis.tree site.scope place bindings ofBody) →
    Accounts analysis [] (fun typed =>
        Expr.nestsBindings typed.2.1.nests typed.1 = Expr.nestsBindings body.nests bindings ∧
          typed.2.1.type? = some typed.2.2)
      (fun typed => vantage.usesBindings analysis.tree place typed.1 fun inner place =>
        inner.uses analysis.tree place typed.2.1)
      (site.surveyBindings place bindings fun inner place => inner.survey place body)
  | [], fits, names => by
      rw [Surroundings.declarationsBindings] at names
      rw [Expr.nestsBindings] at fits
      simp only [surveyBindings]
      refine (accounts site rfl vantage views place fits names).bind fun ⟨body', type⟩ ⟨nests, isType⟩ => ?_
      exact .pure ⟨by simp only [Expr.nestsBindings, nests], isType⟩
        (by simp only [Vantage.usesBindings, List.nil_append])
  | ⟨name, written, init⟩ :: bindings, fits, names => by
      rw [Surroundings.declarationsBindings] at names
      rw [Expr.nestsBindings] at fits
      obtain ⟨ofInit, names⟩ := names.append
      obtain ⟨named, names⟩ := names.cons
      simp only [surveyBindings]
      refine .bindNameless (nameless_bindingType written) ?_
      refine (surveyInit_accounts views place init fits.split.1 ofInit).bind fun init' nests => ?_
      obtain ⟨inner, fits'⟩ := views.inside fits.split.2
        [.declared name.name (site.bindingType written).value] named
      rw [← scope_inside views.isTree [.declared name.name (site.bindingType written).value]] at names
      have later : Accounts analysis (vantage.usesOption analysis.tree place (init'.map Prod.fst)) (fun typed =>
            Expr.nestsBindings typed.2.1.nests typed.1 =
                Expr.nestsBindings body.nests (⟨name, written, init⟩ :: bindings) ∧
              typed.2.1.type? = some typed.2.2)
          (fun typed => vantage.usesBindings analysis.tree place typed.1 fun inner place =>
            inner.uses analysis.tree place typed.2.1) (do
          let (bindings, body, type) ← (site.inside (place + (Expr.nestsOption init).length)
            [.declared name.name (site.bindingType written).value]).surveyBindings 0 bindings
              fun inner place => inner.survey place body
          return (⟨name, written, init'.map Prod.fst⟩ :: bindings, body, type)) := by
        refine (surveyBindings_accounts inner 0 accounts bindings fits' names).bind
          fun ⟨bindings', body', type⟩ ⟨nests', isType⟩ => ?_
        exact .pure ⟨by simp only [Expr.nestsBindings, nests, nests'], isType⟩
          (by simp only [Vantage.usesBindings, nests]; rfl)
      cases init' with
      | none => exact later
      | some init' => exact .bindNameless (.flow _ _ _ _) later

theorem surveyInit_accounts {site : Site} {vantage : Vantage} (views : analysis.Views site vantage) (place : Nat) :
    (init : Option Expr) → site.Fits place (Expr.nestsOption init) →
    analysis.tree.Names (site.declarationsOption analysis.tree site.scope place init) →
    Accounts analysis [] (fun typed => Expr.nestsOption (typed.map Prod.fst) = Expr.nestsOption init)
      (fun typed => vantage.usesOption analysis.tree place (typed.map Prod.fst)) (site.surveyInit place init)
  | none, _, _ => .pure rfl (by simp only [Option.map_none, Vantage.usesOption])
  | some init, fits, names => by
      rw [Surroundings.declarationsOption] at names
      rw [Expr.nestsOption] at fits
      simp only [surveyInit]
      refine (survey_accounts views place init fits names).bind fun ⟨init', type⟩ ⟨nests, _⟩ => ?_
      exact .pure (by simp only [Option.map_some, Expr.nestsOption, nests])
        (by simp only [Option.map_some, Vantage.usesOption, List.nil_append])

theorem surveyBranches_accounts {site : Site} {vantage : Vantage} (views : analysis.Views site vantage) (place : Nat)
    (seen : List TypeId) (type : Option TypeId) :
    (branches : List (Branch Expr)) → site.Fits place (Expr.nestsBranches branches) →
    analysis.tree.Names (site.declarationsBranches analysis.tree site.scope place branches) →
    Accounts analysis [] (fun typed => Expr.nestsBranches typed.1 = Expr.nestsBranches branches)
      (fun typed => vantage.usesBranches analysis.tree place typed.1) (site.surveyBranches place seen type branches)
  | [], _, _ => by
      simp only [surveyBranches]
      exact .pure rfl (by simp only [Vantage.usesBranches])
  | ⟨name, written, body⟩ :: branches, fits, names => by
      rw [Surroundings.declarationsBranches] at names
      rw [Expr.nestsBranches, ← List.singleton_append] at fits
      obtain ⟨named, names⟩ := names.cons
      obtain ⟨ofBody, ofLater⟩ := names.append
      simp only [surveyBranches]
      refine .bindNameless (nameless_branchType seen written) ?_
      obtain ⟨inner, fits'⟩ := views.inside fits.split.1
        [.declared name.name (site.branchType seen written).value.1] named
      rw [← scope_inside views.isTree [.declared name.name (site.branchType seen written).value.1]] at ofBody
      refine (survey_accounts inner 0 body fits' ofBody).bind fun ⟨body', bodyType⟩ ⟨nests, _⟩ => ?_
      refine (surveyBranches_accounts views _ _ _ branches fits.split.2 ofLater).bind fun ⟨branches', type⟩ nests' => ?_
      exact .pure (by simp only [Expr.nestsBranches, nests, nests'])
        (by simp only [Vantage.usesBranches, List.nil_append]; rfl)

end

/-! ### Features and classes -/

theorem surveyAttribute_accounts {site : Site} {vantage : Vantage} (views : analysis.Views site vantage)
    (decl : AttributeDecl) (fits : site.Fits 0 (Expr.nestsOption decl.init))
    (names : analysis.tree.Names (site.declarationsOption analysis.tree site.scope 0 decl.init)) :
    Accounts analysis [] (fun typed => typed.name = decl.name)
      (fun typed => vantage.usesOption analysis.tree 0 typed.init) (site.surveyAttribute decl) := by
  obtain ⟨name, written, init⟩ := decl
  cases init with
  | none => exact .pure rfl (by simp only [Vantage.usesOption])
  | some init =>
      rw [Surroundings.declarationsOption] at names
      rw [Expr.nestsOption] at fits
      refine (survey_accounts views 0 init fits names).bind fun ⟨init', type⟩ _ => ?_
      refine .bindNameless (.flow _ _ _ _) ?_
      exact .pure rfl (by simp only [Vantage.usesOption, List.nil_append])

theorem surveyMethod_accounts {site : Site} {vantage : Vantage} (views : analysis.Views site vantage)
    (decl : MethodDecl) (fits : site.Fits 0 decl.body.nests)
    (names : analysis.tree.Names (site.declarations analysis.tree site.scope 0 decl.body)) :
    Accounts analysis [] (fun typed => typed.name = decl.name ∧ typed.params = decl.params)
      (fun typed => vantage.uses analysis.tree 0 typed.body) (site.surveyMethod decl) := by
  refine (survey_accounts views 0 decl.body fits names).bind fun ⟨body', type⟩ _ => ?_
  refine .bindNameless (.flow _ _ _ _) ?_
  exact .pure ⟨rfl, rfl⟩ rfl

/-- A feature is seen from the class around it. -/
theorem surveyFeature_accounts {site : Site} {vantage : Vantage} (views : analysis.Views site vantage) (place : Nat)
    (feature : Feature) (fits : site.Fits place [.scope feature.nests])
    (names : analysis.tree.Names (site.declarationsFeature analysis.tree site.scope place feature)) :
    Accounts analysis [] (fun _ => True) (fun typed => vantage.usesFeature analysis.tree place typed)
      (site.surveyFeature place feature) := by
  obtain ⟨named, names⟩ := names.cons
  obtain ⟨inner, fits⟩ := views.inside fits (site.featureVariables feature) named
  rw [← scope_inside views.isTree (site.featureVariables feature)] at names
  rcases feature with decl | decl
  · refine (surveyAttribute_accounts (inner.withFeature decl.name.name) decl fits names).bind fun typed same => ?_
    refine .pure trivial ?_
    rw [Vantage.usesFeature, same, List.nil_append]
    rfl
  · refine (surveyMethod_accounts (inner.withFeature decl.name.name) decl fits names).bind
      fun typed ⟨same, params⟩ => ?_
    refine .pure trivial ?_
    have declared : (site.featureVariables (.method decl)).map Variable.name =
        "self" :: decl.params.map fun param => param.name.name := by
      rw [Surroundings.featureVariables, List.map_cons, List.map_map]
      rfl
    rw [Vantage.usesFeature, same, params, ← declared, List.nil_append]

theorem surveyFeatures_accounts {site : Site} {vantage : Vantage} (views : analysis.Views site vantage) (place : Nat)
    (features : List Feature) (fits : site.Fits place (features.map fun feature => .scope feature.nests))
    (names : analysis.tree.Names (site.declarationsFeatures analysis.tree site.scope place features)) :
    Accounts analysis [] (fun _ => True) (fun typed => vantage.usesFeatures analysis.tree place typed)
      (site.surveyFeatures place features) := by
  induction features generalizing place with
  | nil => exact .pure trivial rfl
  | cons feature features ih =>
      rw [Surroundings.declarationsFeatures] at names
      rw [List.map_cons, ← List.singleton_append] at fits
      refine (surveyFeature_accounts views place feature fits.split.1 names.append.1).bind fun feature' _ => ?_
      refine (ih (place + 1) fits.split.2 names.append.2).bind fun features' _ => ?_
      exact .pure trivial (by simp only [Vantage.usesFeatures, List.nil_append])

/-- Below the root, the classes that have a type are seen from their scopes in order. -/
theorem surveyClasses_accounts (all : ClassTypes) (place : Nat) (decls : List ClassDecl) (types : ClassTypes)
    {scopes : List ScopeId}
    (views : ∀ index type, (types.filterMap id)[index]? = some type → analysis.Views
      (ofClass analysis.hierarchy (some analysis.tree) all type (place + index))
      ⟨type, "", analysis.tree.child ScopeTree.root (place + index), []⟩)
    (fits : Fits ⟨⟨analysis.hierarchy, .object, ""⟩, some analysis.tree, ScopeTree.root, []⟩ place
      (Program.nests ⟨decls⟩ types))
    (left : (analysis.tree.children ScopeTree.root).drop place = scopes)
    (enough : (types.filterMap id).length ≤ scopes.length)
    (names : analysis.tree.Names (declarationsClasses analysis.hierarchy all analysis.tree decls types scopes)) :
    Accounts analysis [] (fun _ => True) (fun typed => Vantage.usesClasses analysis.tree place typed types)
      (surveyClasses analysis.hierarchy (some analysis.tree) all place decls types) := by
  induction decls generalizing types place scopes with
  | nil => rcases types with _ | ⟨_ | _, _⟩ <;> exact .pure trivial rfl
  | cons decl decls ih =>
      rcases types with _ | ⟨_ | type, types⟩
      · exact .pure trivial rfl
      · refine (ih place types views fits left enough names).bind fun decls' _ => ?_
        exact .pure trivial (by simp only [Vantage.usesClasses, List.nil_append])
      · obtain _ | ⟨scope, scopes⟩ := scopes
        · exact absurd enough (Nat.not_succ_le_zero _)
        rw [declarationsClasses] at names
        obtain ⟨_, names⟩ := names.cons
        obtain ⟨isNext, rest⟩ := next_of_drop left
        have isChild := ScopeTree.child_of_getElem? isNext
        have isScope : (ofClass analysis.hierarchy (some analysis.tree) all type place).scope = scope :=
          (scope_inside rfl _).trans isChild
        obtain ⟨first, later⟩ : Fits ⟨⟨analysis.hierarchy, type, ""⟩, some analysis.tree, ScopeTree.root, []⟩ place
              [.scope decl.nests] ∧
            Fits ⟨⟨analysis.hierarchy, .object, ""⟩, some analysis.tree, ScopeTree.root, []⟩ (place + 1)
              (Program.nests ⟨decls⟩ types) := Fits.split fits
        have features := surveyFeatures_accounts (views 0 type rfl) 0 decl.features (first.inside rfl _)
          (isScope.symm ▸ names.append.1)
        have class' : Accounts analysis [] (fun _ => True) (fun typed =>
              Vantage.usesFeatures analysis.tree ⟨type, "", analysis.tree.child ScopeTree.root place, []⟩ 0
                typed.features)
            (surveyClass (ofClass analysis.hierarchy (some analysis.tree) all type place) decl) :=
          features.bind fun features' _ => .pure trivial rfl
        refine class'.bind fun decl' _ => ?_
        refine (ih (place + 1) types (fun index type isType => ?_) later rest
          (Nat.le_of_succ_le_succ enough) names.append.2).bind fun decls' _ => ?_
        · rw [Nat.add_right_comm, Nat.add_assoc]
          exact views (index + 1) type isType
        · exact .pure trivial (by simp only [Vantage.usesClasses, List.nil_append])

end Site

/-! ### Scopes of classes -/

theorem findSome?_bind {α β γ : Type} {all : List α} {find : α → Option β} {next : β → Option γ}
    (known : ∀ elem ∈ all, ∀ found, find elem = some found → (next found).isSome) :
    all.findSome? (fun elem => (find elem).bind next) = (all.findSome? find).bind next := by
  induction all with
  | nil => rfl
  | cons elem all ih =>
      obtain ⟨first, later⟩ := List.forall_mem_cons.mp known
      rw [List.findSome?_cons, List.findSome?_cons]
      cases isFound : find elem with
      | none => exact ih later
      | some found =>
          obtain ⟨value, isValue⟩ := Option.isSome_iff_exists.mp (first found isFound)
          simp only [Option.bind_some, isValue]

namespace Analysis

section

variable {analysis : Analysis} {own : TypeId → List VariableId}

/-- The first name in an index is found there. -/
theorem Shares.findIdx_own (shares : analysis.Shares own) (owner : TypeId) (name : String) :
    (own owner).findIdx (fun id => (analysis.tree.variableAt id).name == name) =
      (analysis.hierarchy.info owner).attributes.findIdx fun attr => attr.name == name := by
  have same := congrArg (List.findIdx fun info : Variable => info.name == name) (shares.slots owner)
  rw [List.findIdx_map, List.findIdx_map] at same
  exact same

variable (prepared : analysis.Prepared)
  (typed : ∀ owner, ∀ attr ∈ (analysis.hierarchy.info owner).attributes, some owner ∈ analysis.types)
include prepared

theorem classScope_of_place {place : Nat} {type : TypeId} (isType : (analysis.types.filterMap id)[place]? = some type) :
    analysis.tree.classScope analysis.types type = analysis.tree.child ScopeTree.root place := by
  obtain ⟨inRange, rfl⟩ := List.getElem?_eq_some_iff.mp isType
  rw [ScopeTree.classScope, prepared.distinct.idxOf_getElem place inRange]

include typed

/-- The scopes of classes are as they have been opened. -/
theorem Shares.of_opened
    (shared : ScopeTree.SharesAttributes analysis.hierarchy analysis.types analysis.tree own
      (analysis.tree.children ScopeTree.root)) : analysis.Shares own := by
  refine ⟨fun owner => (shared.slots owner).trans ?_, fun type member => ?_⟩
  · split
    · rfl
    · rename_i untyped
      have none : (analysis.hierarchy.info owner).attributes = [] :=
        List.eq_nil_iff_forall_not_mem.mpr fun attr member => untyped (typed owner attr member)
      rw [none]
      rfl
  · have listed : type ∈ analysis.types.filterMap id := List.mem_filterMap.mpr ⟨some type, member, rfl⟩
    obtain ⟨place, inRange, rfl⟩ := List.getElem_of_mem listed
    have inRange' : place < (analysis.tree.children ScopeTree.root).length := prepared.numbered ▸ inRange
    rw [classScope_of_place prepared (List.getElem?_eq_getElem inRange), ScopeTree.child,
      List.getElem?_eq_getElem inRange']
    exact shared.locals.get inRange' inRange

/-- A class has a variable of its own for the name of an attribute, and that is what the name is bound to in the scope
of the class. -/
theorem Shares.find?_own (shares : analysis.Shares own) {owner : TypeId} {name : String} {attr : Attribute}
    (found : (analysis.hierarchy.info owner).attribute? name = some attr) :
    ∃ id, (own owner).find? (fun id => (analysis.tree.variableAt id).name == name) = some id ∧
      analysis.tree.bound? ⟨name, analysis.tree.classScope analysis.types owner,
        (analysis.hierarchy.info owner).attributes.findIdx fun attr => attr.name == name⟩ = some id := by
  rw [TypeInfo.attribute?] at found
  have member := List.mem_of_find?_eq_some found
  have isNamed := List.find?_some found
  have isType := typed owner attr member
  obtain ⟨above, ancestors⟩ := Hierarchy.ancestors_head (prepared.areClasses owner isType).known
  have index := shares.findIdx_own owner name
  have inRange : (own owner).findIdx (fun id => (analysis.tree.variableAt id).name == name) < (own owner).length := by
    have same := congrArg List.length (shares.slots owner)
    rw [List.length_map, List.length_map] at same
    rw [index, same]
    exact List.findIdx_lt_length_of_exists ⟨attr, member, isNamed⟩
  refine ⟨_, List.find?_eq_getElem?_findIdx.trans (List.getElem?_eq_getElem inRange), ?_⟩
  rw [ScopeTree.bound?, shares.locals owner isType, ancestors, List.flatMap_cons, ← index,
    List.getElem?_append_left inRange, List.getElem?_eq_getElem inRange]

/-- An attribute that a class has or inherits is bound. -/
theorem Shares.exists_bound (shares : analysis.Shares own) (type : TypeId) {name : String} {binder : Binder}
    (isBinder : analysis.attributeBinder? type name = some binder) : ∃ id, analysis.tree.bound? binder = some id := by
  obtain ⟨⟨owner, attr⟩, found, rfl⟩ := Option.map_eq_some_iff.mp isBinder
  obtain ⟨_, _, isFound⟩ := List.exists_of_findSome?_eq_some found
  obtain ⟨_, isAttribute, same⟩ := Option.map_eq_some_iff.mp isFound
  cases same
  obtain ⟨id, _, isBound⟩ := shares.find?_own prepared typed isAttribute
  exact ⟨id, isBound⟩

/-- In the scope of a class, a name means the attribute that the hierarchy finds for it. -/
theorem Shares.local?_class (shares : analysis.Shares own) {type : TypeId} (isType : some type ∈ analysis.types)
    (name : String) : analysis.tree.local? (analysis.tree.classScope analysis.types type) name =
      (analysis.attributeBinder? type name).bind analysis.tree.bound? := by
  rw [ScopeTree.local?, shares.locals type isType, List.find?_flatMap, attributeBinder?, Hierarchy.attribute?,
    Option.bind_map, ← findSome?_bind]
  · congr 1
    funext owner
    cases found : (analysis.hierarchy.info owner).attribute? name with
    | none =>
        have same := congrArg (List.find? fun info : Variable => info.name == name) (shares.slots owner)
        rw [List.find?_map, List.find?_map] at same
        exact Option.map_eq_none_iff.mp (same.trans (congrArg (Option.map _) found))
    | some attr =>
        obtain ⟨id, isOwn, isBound⟩ := shares.find?_own prepared typed found
        rw [isOwn]
        exact isBound.symm
  · intro owner _ found isFound
    obtain ⟨_, isAttribute, rfl⟩ := Option.map_eq_some_iff.mp isFound
    obtain ⟨id, _, isBound⟩ := shares.find?_own prepared typed isAttribute
    exact Option.isSome_iff_exists.mpr ⟨id, isBound⟩

/-- The features of a class see its attributes, and what is around the class declares nothing. -/
theorem views_class (grounded : analysis.tree.Grounded) (shares : analysis.Shares own) {place : Nat} {type : TypeId}
    (isType : (analysis.types.filterMap id)[place]? = some type) :
    analysis.Views (Site.ofClass analysis.hierarchy (some analysis.tree) analysis.types type place)
      ⟨type, "", analysis.tree.child ScopeTree.root place, []⟩ := by
  have isScope := classScope_of_place prepared isType
  have member : some type ∈ analysis.types := by
    obtain ⟨_, member, rfl⟩ := List.mem_filterMap.mp (List.mem_of_getElem? isType)
    exact member
  have inRange : place < (analysis.tree.children ScopeTree.root).length :=
    prepared.numbered ▸ (List.getElem?_eq_some_iff.mp isType).1
  have isChild : analysis.tree.child ScopeTree.root place ∈ analysis.tree.children ScopeTree.root := by
    rw [ScopeTree.child_of_getElem? (List.getElem?_eq_getElem inRange)]
    exact List.getElem_mem inRange
  obtain ⟨known, isParent⟩ := grounded.wellFormed.children ScopeTree.root _ isChild
  have bare := ScopeTree.sees_root grounded.known grounded.outermost
  rw [ScopeTree.slots, grounded.bare, List.map_nil] at bare
  refine ⟨grounded.wellFormed, rfl, rfl, rfl, rfl, rfl, known, bare.child grounded.wellFormed known isParent,
    fun name binder isBinder => shares.exists_bound prepared typed type isBinder, fun name => ?_⟩
  have outside : analysis.tree.find? ScopeTree.root name = none := Option.map_eq_none_iff.mp (bare name)
  change analysis.tree.find? (analysis.tree.child ScopeTree.root place) name = _
  rw [ScopeTree.find?_inner grounded.wellFormed known isParent, outside, Option.or_none, ← isScope,
    shares.local?_class prepared typed member]
  rfl

end

theorem checked_shares (program : Program) : ∃ own, (checked program).Shares own := by
  obtain ⟨own, shared⟩ := program.check_shares (checked program).types (checked program).hierarchy
  exact ⟨own, .of_opened (checked_prepared program) (fun _ _ => mem_types_of_attribute) shared⟩

/-- Names resolve lexically. Each name that is used in a checked program, but for assignments to `self`, means the
variable of its innermost binder, with the type that the variable has; what is assigned is checked against that type. A
name is reported as unknown exactly where it has no binder. An attribute has one variable, in the scope of its class
and in those of all classes that inherit it. -/
theorem names_resolve (program : Program) :
    let analysis := checked program
    let found := (ofProgram program).collect.1.build.1.check.2
    analysis.program.untyped = program.untyped ∧
      (∀ use ∈ analysis.uses, analysis.Resolves use ∧ ∀ fault ∈ analysis.refusal? use, fault ∈ found) ∧
      found.filter Diagnostic.isUnknownVariable =
        (analysis.uses.filter fun use => (analysis.binder? use.toVantage use.name).isNone).map Use.unknown ∧
      ∃ own, analysis.Shares own := by
  intro analysis found
  have prepared := checked_prepared program
  obtain ⟨own, shares⟩ := checked_shares program
  obtain ⟨value, isFound, grounded, declared⟩ := checked_surveyed program
  have untyped := untyped_checked program
  have fits := (Nest.outline_at (analysis.program.nests analysis.types)).1
  rw [← prepared.outline, Nest.at_skeleton, Nest.At, Program.nests_of_untyped untyped] at fits
  have names : analysis.tree.Names (program.declarations analysis.types analysis.hierarchy analysis.tree) :=
    fun entry member => congrArg (List.map Variable.name) (declared entry member)
  have classes := Site.surveyClasses_accounts analysis.types 0 program.classes analysis.types
    (fun index type isType => by
      rw [Nat.zero_add]
      exact views_class prepared (fun _ _ => mem_types_of_attribute) grounded shares isType)
    (fun tree isTree => by
      cases isTree
      exact ⟨_, [], (List.append_nil _).symm, fits⟩)
    List.drop_zero (Nat.le_of_eq prepared.numbered) names
  have accounts : Survey.Accounts analysis [] (fun _ => True)
      (fun typed => Vantage.usesClasses analysis.tree 0 typed.classes analysis.types)
      (program.survey analysis.types analysis.hierarchy (some analysis.tree)) :=
    classes.bind fun _ _ => .pure trivial rfl
  rw [Program.survey_alone prepared.numbered declared] at accounts
  obtain ⟨later, isLater, resolves, unknown⟩ := accounts.told
  rw [← value, List.nil_append] at isLater
  rw [← isFound] at resolves unknown
  obtain rfl : analysis.uses = later := isLater
  exact ⟨untyped, resolves, unknown, own, shares⟩

end Analysis

/-! ### A class that is not checked -/

namespace Program

section

open TokenKind

private def identAt (column : Nat) (name : String) : Ident :=
  ⟨name, ⟨1, column⟩⟩

private def tokenAt (column : Nat) (kind : TokenKind) (lexeme : String) : Token :=
  ⟨kind, lexeme, ⟨1, column⟩⟩

/-- Two classes of one name. The second has an initializer that nothing binds. -/
def redeclaring : Program where
  classes := [
    ⟨identAt 7 "A", none, [], ⟨1, 1⟩⟩,
    ⟨identAt 20 "A", none,
      [.attribute ⟨identAt 24 "x", identAt 28 "Int", some (.identifier ⟨⟨1, 35⟩, none⟩ "y")⟩], ⟨1, 14⟩⟩]

def redeclaringSource : String :=
  "class A \x7b \x7d; class A \x7b x : Int <- y; \x7d;"

theorem parse_redeclaring : parse (Scan.ofSource redeclaringSource).tokens = .ok redeclaring := by
  have read : Reads Phrase.expr [tokenAt 35 objectName "y"] (.expr (.identifier ⟨⟨1, 35⟩, none⟩ "y")) :=
    .single _ rfl
  have feature : Reads Phrase.feature _ (.feature (.attribute ⟨identAt 24 "x", identAt 28 "Int", some _⟩)) :=
    .of_built (.lexemes [tokenAt 24 objectName "x", tokenAt 26 colon ":", tokenAt 28 typeName "Int",
        tokenAt 32 assign "<-"]
      (.cons read (.token (tokenAt 36 semicolon ";") .nil))) rfl
  have first : Reads Phrase.classDef _ (.classDecl ⟨identAt 7 "A", none, [], ⟨1, 1⟩⟩) :=
    .of_built (.lexemes [tokenAt 1 classWord "class", tokenAt 7 typeName "A", tokenAt 9 leftBrace "\x7b"]
      (.cons (.features .nil) (.lexemes [tokenAt 11 rightBrace "\x7d", tokenAt 12 semicolon ";"] .nil))) rfl
  have second : Reads Phrase.classDef _ (.classDecl ⟨identAt 20 "A", none, [_], ⟨1, 14⟩⟩) :=
    .of_built (.lexemes [tokenAt 14 classWord "class", tokenAt 20 typeName "A", tokenAt 22 leftBrace "\x7b"]
      (.cons (.features (.cons feature .nil))
        (.lexemes [tokenAt 38 rightBrace "\x7d", tokenAt 39 semicolon ";"] .nil))) rfl
  exact parse_of_classes (List.cons_ne_nil _ _) (.cons first (.cons second .nil)) (Token.endOfInput ⟨1, 40⟩)
    (by decide +kernel) rfl

/-- A class of a name that is taken has no type and is not checked, so a name that nothing binds, also not in the class
that has the type, is not reported there. -/
theorem unbound_unreported : ∃ program decl,
    parse (Scan.ofSource redeclaringSource).tokens = .ok program ∧ program.classes[1]? = some decl ∧
      (Analysis.checked program).hierarchy.find? decl.name.name = some ⟨8⟩ ∧
      ∀ scope, ∃ use ∈ Vantage.usesFeatures (Analysis.checked program).tree ⟨⟨8⟩, "", scope, []⟩ 0 decl.features,
        (Analysis.checked program).binder? use.toVantage use.name = none ∧
          use.unknown ∉ (Analysis.ofProgram program).collect.1.build.1.check.2 := by
  refine ⟨redeclaring, _, parse_redeclaring, rfl, by decide +kernel,
    fun scope => ⟨_, List.mem_singleton_self _, ?_, ?_⟩⟩
  · have absent : (Analysis.checked redeclaring).attributeBinder? ⟨8⟩ "y" = none := by decide +kernel
    exact absent
  · have nothing : (Analysis.ofProgram redeclaring).collect.1.build.1.check.2 = [] := by decide +kernel
    rw [nothing]
    exact List.not_mem_nil

end

end Program

end CoolLang
