import CoolLang.Proofs.Inference.Agreement
import CoolLang.Proofs.Typing.Classes

/-!
Inference and typing agree. Where nothing more is to be learned, a walk of inference finds the types that a
survey finds (`Inference.infer_agrees`), and every value that flows into an open declaration conforms to its
type (`Inference.walk_blameless`).
-/

namespace CoolLang

namespace Inference

variable {site : Site} {place : Nat} {nests : List Nest} {given : Prop}

/-! ### Expressions -/

mutual

theorem infer_agrees {given : Prop} (site : Site) (rests : Rests site.hierarchy site.current site.tree)
    (hint : Option TypeId) (place : Nat) : (expr : Expr) →
    Agrees given site place expr.nests (infer site.current hint expr) (site.survey place expr)
      (SameType site.hierarchy.types.size)
  | .integer note value => by
      rw [infer, Site.survey, Expr.nests]
      exact .skip (agrees_noted note .int) fun _ => .pure fun _ => ⟨rfl, rests.gives.int⟩
  | .string note value => by
      rw [infer, Site.survey, Expr.nests]
      exact .skip (agrees_noted note .string) fun _ => .pure fun _ => ⟨rfl, rests.gives.string⟩
  | .boolean note value => by
      rw [infer, Site.survey, Expr.nests]
      exact .skip (agrees_noted note .bool) fun _ => .pure fun _ => ⟨rfl, rests.gives.bool⟩
  | .identifier note name => by
      rw [infer, Site.survey, Expr.nests]
      exact (agrees_inferName rests hint name note.position).bind fun type told =>
        .skip (agrees_noted note type) fun _ => .pure fun ⟨⟨_, same⟩, _⟩ => same
  | .assign note target value => by
      rw [infer, Site.survey, Expr.nests]
      exact .skip (agrees_lookUp target.name) fun id => .skip (agrees_targetHint id) fun expected =>
        (infer_agrees site rests expected place value).bindSilent fun ⟨_, type⟩ ⟨value, told⟩ =>
        (agrees_observeTarget rests target id value.position (fun ⟨⟨⟨_, isFound⟩, _⟩, _⟩ => isFound)
          fun ⟨_, same⟩ => same).bind fun _ _ =>
        .skip (agrees_noted note type) fun _ => .pure fun ⟨⟨⟨_, same⟩, _⟩, _⟩ => same
  | .dispatch note receiver cast method args => by
      rw [infer, Site.survey, Expr.nests]
      refine .skip .get fun before => (inferReceiver_agrees site rests _ place receiver).bind
        fun ⟨_, type⟩ ⟨_, told⟩ => .tell (fun _ => dispatchType_blameless told cast) <|
        .tell (fun _ => callee_blameless _ method args.length) <| .skip .get fun state => ?_
      have isCallee (same : ((given ∧ Stands site place [] before) ∧
          type = told ∧ type.Absolute site.hierarchy.types.size) ∧
          Stands site (place + (Expr.nestsOption receiver).length) [] state) :
          (cast.map (castType before.hierarchy)).getD type = (site.dispatchType told cast).value ∧
            callee? state.hierarchy ((cast.map (castType before.hierarchy)).getD type) method args.length =
              callee? site.hierarchy (site.dispatchType told cast).value method args.length := by
        rw [dispatchType_value, same.1.1.2.hierarchy, same.2.hierarchy, same.1.2.1]
        exact ⟨rfl, rfl⟩
      exact (inferArgs_agrees site rests _ 0 _ args (Site.calleeParams (site.callee _ method args.length).value)
        (fun same owner known isKnown => by
          rw [(isCallee same).2] at isKnown
          exact method?_of_callee? isKnown)
        fun same later => by rw [(isCallee same).2, paramAt_callee, Nat.zero_add]).bindSilent fun _ _ =>
        .skip (agrees_noted note _) fun _ => .pure fun ⟨⟨same, _⟩, _⟩ => by
          obtain ⟨isOwner, isCallee⟩ := isCallee same
          obtain ⟨⟨_, isTold, absolute⟩, _⟩ := same
          rw [isCallee, isOwner]
          obtain rfl : type = told := isTold
          have ofOwner := dispatchType_absolute rests absolute cast
          exact ⟨dispatchResult_callee ofOwner type method args.length,
            Invariant.typed_dispatchResult rests.gives method args.length absolute ofOwner⟩
  | .cond note test yes no => by
      rw [infer, Site.survey, Expr.nests]
      exact (infer_agrees site rests _ place test).bind fun ⟨_, _⟩ ⟨_, _⟩ =>
        .tell (fun _ => .flow _ False.elim) <|
        (infer_agrees site rests hint _ yes).bind fun ⟨_, _⟩ ⟨_, _⟩ =>
        (infer_agrees site rests hint _ no).bindSilent fun ⟨_, _⟩ ⟨_, _⟩ =>
        .skip .get fun state => .skip (agrees_noted note _) fun _ =>
        .pure fun ⟨⟨⟨⟨_, sameYes, ofYes⟩, sameNo, ofNo⟩, stands⟩, _⟩ => by
          dsimp only at sameYes sameNo ofYes ofNo
          subst sameYes sameNo
          rw [stands.hierarchy]
          exact ⟨rfl, rests.gives.union ofYes ofNo⟩
  | .loop note test body => by
      rw [infer, Site.survey, Expr.nests]
      exact (infer_agrees site rests _ place test).bind fun ⟨_, _⟩ ⟨_, _⟩ =>
        .tell (fun _ => .flow _ False.elim) <|
        (infer_agrees site rests none _ body).bindSilent fun ⟨_, _⟩ ⟨_, _⟩ =>
        .skip (agrees_noted note .object) fun _ => .pure fun _ => ⟨rfl, rests.gives.object⟩
  | .block note body => by
      rw [infer, Site.survey, Expr.nests]
      have inside : Agrees given site place _ _ _ _ := .inside (fun _ => inferAll site.current hint .object body) []
        rests.wellFormed fun _ =>
        inferAll_agrees (site.inside place []) rests hint 0 body fun _ => ⟨rfl, rests.gives.object⟩
      have later (result told : List Expr × TypeId) :
          Agrees (given ∧ SameType site.hierarchy.types.size result told) site (place + 1) []
            (do return (Expr.block (← noted note result.2) result.1, result.2))
            (pure (Expr.block (note.typed told.2) told.1, told.2)) (SameType site.hierarchy.types.size) :=
        .skip (agrees_noted note result.2) fun _ => .pure fun ⟨⟨_, same⟩, _⟩ => same
      exact inside.bindSilent later
  | .letIn note bindings body => by
      rw [infer, Site.survey, Expr.nests]
      exact (inferBindings_agrees site rests place bindings fun _ inner env place =>
          infer_agrees { site with scope := inner, env := env } rests hint place body).bindSilent
        fun ⟨_, _, type⟩ ⟨_, _, told⟩ => .skip (agrees_noted note type) fun _ => .pure fun ⟨⟨_, same⟩, _⟩ => same
  | .caseOf note scrutinee branches => by
      rw [infer, Site.survey, Expr.nests]
      exact (infer_agrees site rests none place scrutinee).bind fun ⟨_, _⟩ ⟨_, _⟩ =>
        (inferBranches_agrees site rests hint _ [] branches fun _ => ⟨rfl, hint_none⟩).bindSilent
        fun ⟨_, type⟩ ⟨_, told⟩ => .skip (agrees_noted note _) fun _ => .pure fun ⟨⟨_, same, known⟩, _⟩ => by
          dsimp only at same known
          subst same
          cases type with
          | none => exact ⟨rfl, rests.gives.error⟩
          | some type => exact ⟨rfl, known type rfl⟩
  | .new note written => by
      rw [infer, Site.survey, Expr.nests]
      exact .skip .get fun state => .tell (fun _ => newType_blameless written) <|
        .skip (agrees_noted note _) fun _ => .pure fun ⟨⟨_, stands⟩, _⟩ => by
          rw [stands.hierarchy]
          exact ⟨newType_value rests.isClass written, Invariant.typed_newType rests.gives rests.isClass.absolute written⟩
  | .isVoid note operand => by
      rw [infer, Site.survey, Expr.nests]
      exact (infer_agrees site rests none place operand).bindSilent fun ⟨_, _⟩ ⟨_, _⟩ =>
        .skip (agrees_noted note .bool) fun _ => .pure fun _ => ⟨rfl, rests.gives.bool⟩
  | .not note operand => by
      rw [infer, Site.survey, Expr.nests]
      exact (infer_agrees site rests _ place operand).bindSilent fun ⟨_, _⟩ ⟨_, _⟩ =>
        .tell (fun _ => .flow _ False.elim) <|
        .skip (agrees_noted note .bool) fun _ => .pure fun _ => ⟨rfl, rests.gives.bool⟩
  | .complement note operand => by
      rw [infer, Site.survey, Expr.nests]
      exact (infer_agrees site rests _ place operand).bindSilent fun ⟨_, _⟩ ⟨_, _⟩ =>
        .tell (fun _ => .flow _ False.elim) <|
        .skip (agrees_noted note .int) fun _ => .pure fun _ => ⟨rfl, rests.gives.int⟩
  | .binary note operator left right => by
      rw [Site.survey, Expr.nests]
      have operands (first : Option TypeId) (second : TypeId → Option TypeId) (type : TypeId) (isType : type = operator.resultType) :
          Agrees given site place (left.nests ++ right.nests)
            (do
              let (left, leftType) ← infer site.current first left
              let (right, _) ← infer site.current (second leftType) right
              return (Expr.binary (← noted note type) operator left right, type))
            (site.survey place (.binary note operator left right)) (SameType site.hierarchy.types.size) := by
        rw [Site.survey]
        refine (infer_agrees site rests first place left).bind fun ⟨_, leftType⟩ ⟨_, _⟩ =>
          (infer_agrees site rests (second leftType) _ right).bindSilent fun ⟨_, _⟩ ⟨_, _⟩ => ?_
        dsimp only
        split
        · exact .tell (fun _ => .fault _ _) <| .skip (agrees_noted note _) fun _ =>
            .pure fun _ => ⟨isType, isType ▸ rests.gives.resultType operator⟩
        · exact .skip (agrees_noted note _) fun _ =>
            .pure fun _ => ⟨isType, isType ▸ rests.gives.resultType operator⟩
      rw [Site.survey] at operands
      by_cases equality : operator = .equal
      · subst equality
        rw [infer]
        exact operands (right.type?.bind TypeId.expected?) TypeId.expected? .bool rfl
      · rw [infer]
        · exact operands (some .int) (fun _ => some .int) operator.resultType rfl
        · exact equality

theorem inferReceiver_agrees {given : Prop} (site : Site) (rests : Rests site.hierarchy site.current site.tree)
    (hint : Option TypeId) (place : Nat) : (receiver : Option Expr) →
    Agrees given site place (Expr.nestsOption receiver) (inferReceiver site.current hint receiver)
      (site.surveyReceiver place receiver) (SameType site.hierarchy.types.size)
  | none => by
      rw [inferReceiver, Site.surveyReceiver, Expr.nestsOption]
      exact .pure fun _ => ⟨rfl, rests.isClass.absolute⟩
  | some receiver => by
      rw [inferReceiver, Site.surveyReceiver, Expr.nestsOption]
      exact (infer_agrees site rests hint place receiver).bindSilent fun ⟨_, _⟩ ⟨_, _⟩ => .pure fun ⟨_, same⟩ => same

theorem inferArgs_agrees {given : Prop} (site : Site) (rests : Rests site.hierarchy site.current site.tree)
    (callee : Option (TypeId × Method)) (start place : Nat) : (args : List Expr) → (params : List Variable) →
    (isKnown : given → ∀ owner method, callee = some (owner, method) →
      (site.hierarchy.info owner).method? method.name = some method) →
    (areParams : given → ∀ later, paramAt callee (start + later) = params[later]?) →
    Agrees given site place (Expr.nestsAll args) (inferArgs site.current callee start args)
      (site.surveyArgs place args params) fun _ _ => True
  | [], _, _, _ => by
      rw [inferArgs, Site.surveyArgs, Expr.nestsAll]
      exact .pure fun _ => trivial
  | arg' :: args, params, isKnown, areParams => by
      rw [inferArgs, Site.surveyArgs, Expr.nestsAll]
      refine (infer_agrees site rests _ place arg').bind fun ⟨_, type⟩ ⟨arg, told⟩ => ?_
      let known := given ∧ type = told ∧ type.Absolute site.hierarchy.types.size
      have observed (params' : List Variable) (isParams : params = params') : Agrees known site
          (place + arg'.nests.length) [] (observeArgument callee start type) _ fun _ _ => True :=
        agrees_observeArgument rests callee start params' arg.position (fun ⟨isGiven, _⟩ => isKnown isGiven)
          (fun ⟨isGiven, _⟩ => isParams ▸ (areParams isGiven 0).trans List.head?_eq_getElem?.symm) fun ⟨_, same⟩ => same
      have later (tail : List Variable) (isTail : params.tail = tail) : Agrees (known ∧ True) site
          (place + arg'.nests.length) (Expr.nestsAll args) (inferArgs site.current callee (start + 1) args)
          (site.surveyArgs (place + arg'.nests.length) args tail) fun _ _ => True :=
        inferArgs_agrees site rests callee (start + 1) _ args tail (fun ⟨⟨isGiven, _⟩, _⟩ => isKnown isGiven)
          fun ⟨⟨isGiven, _⟩, _⟩ later => by
            rw [← isTail, List.getElem?_tail, Nat.add_assoc, Nat.add_comm 1, areParams isGiven]
      cases params with
      | nil =>
          exact (observed [] rfl).bind fun _ _ => (later [] rfl).bindSilent fun _ _ => .pure fun _ => trivial
      | cons param params =>
          exact (observed (param :: params) rfl).bind fun _ _ =>
            (later params rfl).bindSilent fun _ _ => .pure fun _ => trivial

theorem inferAll_agrees {given : Prop} (site : Site) (rests : Rests site.hierarchy site.current site.tree)
    (hint : Option TypeId) (place : Nat) {last told : TypeId} : (exprs : List Expr) →
    (same : given → last = told ∧ last.Absolute site.hierarchy.types.size) →
    Agrees given site place (Expr.nestsAll exprs) (inferAll site.current hint last exprs)
      (site.surveyAll place told exprs) (SameType site.hierarchy.types.size)
  | [], same => by
      rw [inferAll, Site.surveyAll, Expr.nestsAll]
      exact .pure same
  | expr :: exprs, _ => by
      rw [inferAll, Site.surveyAll, Expr.nestsAll]
      exact (infer_agrees site rests _ place expr).bind fun ⟨_, _⟩ ⟨_, _⟩ =>
        (inferAll_agrees site rests hint _ exprs fun ⟨_, same⟩ => same).bindSilent fun ⟨_, _⟩ ⟨_, _⟩ =>
        .pure fun ⟨_, same⟩ => same

theorem inferBindings_agrees {given : Prop} (site : Site) (rests : Rests site.hierarchy site.current site.tree)
    (place : Nat) {nests : List Nest} {body : Inference (Expr × TypeId)}
    {surveyed : Site → Nat → Survey (Expr × TypeId)} : (bindings : List (Binding Expr)) →
    (agrees : ∀ (given : Prop) inner env place, Agrees given { site with scope := inner, env := env } place nests body
      (surveyed { site with scope := inner, env := env } place) (SameType site.hierarchy.types.size)) →
    Agrees given site place (Expr.nestsBindings nests bindings) (inferBindings site.current bindings body)
      (site.surveyBindings place bindings surveyed)
      fun result told => SameType site.hierarchy.types.size result.2 told.2
  | [], agrees => by
      rw [inferBindings, Site.surveyBindings, Expr.nestsBindings]
      exact (agrees given site.scope site.env place).bindSilent fun ⟨_, _⟩ ⟨_, _⟩ => .pure fun ⟨_, same⟩ => same
  | ⟨name, written, init⟩ :: bindings, agrees => by
      rw [inferBindings, Site.surveyBindings, Expr.nestsBindings]
      refine .skip .get fun before => .tell (fun _ => bindingType_blameless written) ?_
      exact (inferInit_agrees site rests _ place init).bind <| agrees_binding rests name written _ fun _ =>
        inferBindings_agrees (site.inside _ _) rests 0 bindings agrees

theorem inferInit_agrees {given : Prop} (site : Site) (rests : Rests site.hierarchy site.current site.tree)
    (hint : Option TypeId) (place : Nat) : (init : Option Expr) →
    Agrees given site place (Expr.nestsOption init) (inferInit site.current hint init)
      (site.surveyInit place init) (Option.Rel (SameType site.hierarchy.types.size))
  | none => by
      rw [inferInit, Site.surveyInit, Expr.nestsOption]
      exact .pure fun _ => .none
  | some init => by
      rw [inferInit, Site.surveyInit, Expr.nestsOption]
      exact (infer_agrees site rests hint place init).bindSilent fun _ _ => .pure fun ⟨_, same⟩ => .some same

theorem inferBranches_agrees {given : Prop} (site : Site) (rests : Rests site.hierarchy site.current site.tree)
    (hint : Option TypeId) (place : Nat) (seen : List TypeId) {type told : Option TypeId} :
    (branches : List (Branch Expr)) →
    (same : given → type = told ∧ ∀ known ∈ type, known.Absolute site.hierarchy.types.size) →
    Agrees given site place (Expr.nestsBranches branches) (inferBranches site.current hint type branches)
      (site.surveyBranches place seen told branches)
      fun result told => result.2 = told.2 ∧ ∀ known ∈ result.2, known.Absolute site.hierarchy.types.size
  | [], same => by
      rw [inferBranches, Site.surveyBranches, Expr.nestsBranches]
      exact .pure same
  | ⟨name, written, body⟩ :: branches, same => by
      rw [inferBranches, Site.surveyBranches, Expr.nestsBranches]
      refine .tell (fun _ => branchType_blameless seen written) ?_
      have inside : Agrees given site place [.scope body.nests] _ _ _ :=
        .inside (fun _ => infer site.current hint body)
          [.declared name.name (site.branchType seen written).value.1] rests.wellFormed
          fun _ => infer_agrees (site.inside place _) rests hint 0 body
      have later (result told' : Expr × TypeId) :
          Agrees (given ∧ SameType site.hierarchy.types.size result told') site (place + 1)
            (Expr.nestsBranches branches)
            (do
              let hierarchy := (← get).hierarchy
              let type := type.elim result.2 fun type => hierarchy.union type result.2
              let (branches, type) ← inferBranches site.current hint (some type) branches
              return (Branch.mk name written result.1 :: branches, type))
            (do
              let type := told.elim told'.2 fun type => site.hierarchy.union type told'.2
              let (branches, type) ← site.surveyBranches (place + 1) (site.branchType seen written).value.2
                (some type) branches
              return (Branch.mk name written told'.1 :: branches, type))
            (fun result told => result.2 = told.2 ∧ ∀ known ∈ result.2, known.Absolute site.hierarchy.types.size) :=
        .skip .get fun state => (inferBranches_agrees site rests hint (place + 1) _ branches
          fun ⟨⟨isGiven, isSame, absolute⟩, stands⟩ => by
            obtain ⟨rfl, known⟩ := same isGiven
            rw [stands.hierarchy, ← isSame]
            refine ⟨rfl, fun known' isKnown => ?_⟩
            obtain rfl := Option.some.inj isKnown
            cases type with
            | none => exact absolute
            | some type => exact rests.gives.union (known type rfl) absolute).bindSilent fun ⟨_, _⟩ ⟨_, _⟩ => .pure fun ⟨_, same⟩ => same
      exact inside.bind later

end

/-- To a walk, it does not matter in which class and in which feature it stands. -/
theorem Agrees.of_same {α β : Type} (site : Site) {other : Site} {action : Inference α} {survey : Survey β} {same : α → β → Prop}
    (hierarchy : other.hierarchy = site.hierarchy) (tree : other.tree = site.tree) (scope : other.scope = site.scope)
    (env : other.env = site.env) (agrees : Agrees given site place nests action survey same) :
    Agrees given other place nests action survey same := by
  refine ⟨agrees.runs, fun isGiven state stands quiet => ?_⟩
  rw [hierarchy]
  exact agrees.finds isGiven state ⟨stands.hierarchy.trans hierarchy, tree ▸ stands.tree, by
    rw [← scope, ← env]
    exact stands.sees, scope ▸ stands.facing⟩ quiet

/-! ### Features -/

/-- What is known of a declaration of a visit that is left to inference, unless that is a redefinition: the
attribute has the type inferred for a variable, the result of the method is to be inferred. -/
def Visit.Backed (hierarchy : Hierarchy) (tree : ScopeTree) : Visit → Prop
  | .feature owner around _ (.attribute decl) => decl.type.name = "AUTO_TYPE" →
      ∀ known, (hierarchy.info owner).attributeAt? decl.name.name decl.name.position = some known →
        ∃ id, tree.find? around decl.name.name = some id ∧ (tree.variableAt id).auto = true ∧
          ((tree.variableAt id).inferred = true → known.type = (tree.variableAt id).type)
  | .feature owner _ _ (.method decl) => decl.result.name = "AUTO_TYPE" →
      ∀ known, (hierarchy.info owner).methodAt? decl.name.name decl.name.position = some known →
        known.result.auto = true
  | .record _ _ => True

theorem conforms_autoType {hierarchy : Hierarchy} (type : TypeId) : hierarchy.conforms type .autoType = true := by
  rw [Hierarchy.conforms]
  exact Bool.or_eq_true_iff.mpr (Or.inl (Bool.or_eq_true_iff.mpr (Or.inr rfl)))

section

variable (rests : Rests site.hierarchy site.current site.tree)
include rests

/-- A redefinition with an open type takes any value. -/
theorem Rests.conforms_declaredType {written : Ident} (isAuto : written.name = "AUTO_TYPE") (type : TypeId) :
    site.hierarchy.conforms type (site.declaredType written) = true := by
  rw [Surroundings.declaredType, isAuto, rests.names]
  exact conforms_autoType type

theorem agrees_observeAttribute {around scope : ScopeId} (decl : AttributeDecl) (id : Option VariableId)
    (known : Option Attribute) {type told : TypeId} (position : Position)
    (backed : given → ∀ tree ∈ site.tree,
      (Visit.feature site.current around scope (.attribute decl)).Backed site.hierarchy tree)
    (isFound : given → ∀ tree ∈ site.tree, id = tree.find? around decl.name.name)
    (isKnown : given → known = (site.hierarchy.info site.current).attributeAt? decl.name.name decl.name.position)
    (same : given → type = told ∧ type.Absolute site.hierarchy.types.size) :
    Agrees given site place []
      (match id, known with
        | some id, some _ => observeValue id type
        | _, _ => pure ())
      (Survey.flow (.attribute decl) told (site.attributeType decl) position) fun _ _ => True := by
  refine ⟨fun state => ?_, fun isGiven state stands quiet => ⟨trivial, .flow _ fun isAuto => ?_⟩⟩
  · cases id with
    | none => exact .done
    | some id =>
        cases known with
        | none => exact .done
        | some _ => exact .learn (.value id type) .done
  · obtain ⟨rfl, absolute⟩ := same isGiven
    rw [Surroundings.attributeType, ← isKnown isGiven]
    cases known with
    | none => exact rests.conforms_declaredType isAuto type
    | some known =>
        obtain ⟨other, isOther, isOpen, inferred⟩ :=
          backed isGiven state.tree stands.tree isAuto known (isKnown isGiven).symm
        obtain rfl := (isFound isGiven state.tree stands.tree).trans isOther
        have observed := updateVariable_quiet stands.facing.noDrift quiet
        rw [stands.hierarchy] at observed
        dsimp only
        cases concrete : type.isConcrete with
        | false => exact absolute.conforms_of_not_concrete concrete _
        | true =>
            rw [inferred (Variable.inferred_of_observed isOpen concrete observed).1]
            exact Variable.conforms_of_observed rests.rooted (rests.slots state.tree stands.tree other) isOpen absolute
              observed _

theorem inferAttribute_agrees (around scope : ScopeId) (decl : AttributeDecl)
    (backed : given → ∀ tree ∈ site.tree,
      (Visit.feature site.current around scope (.attribute decl)).Backed site.hierarchy tree) :
    Agrees given site 0 (Feature.attribute decl).nests (inferAttribute site.current around decl)
      (site.surveyAttribute decl) fun _ _ => True := by
  unfold inferAttribute Site.surveyAttribute
  rw [Feature.nests]
  cases isInit : decl.init with
  | none => exact .pure fun _ => trivial
  | some init =>
      refine .skip .get fun before => (infer_agrees site rests _ 0 init).bindSilent ?_
      rintro ⟨walked, type⟩ ⟨init', told⟩
      refine .skip .get fun state => ?_
      have observed : Agrees (((given ∧ Stands site 0 [] before) ∧
          type = told ∧ type.Absolute site.hierarchy.types.size) ∧ Stands site (0 + init.nests.length) [] state)
          site (0 + init.nests.length) [] _ _ fun _ _ => True :=
        agrees_observeAttribute rests decl (before.tree.find? around decl.name.name)
          ((state.hierarchy.info site.current).attributeAt? decl.name.name decl.name.position) init'.position
          (fun walking => backed walking.1.1.1)
          (fun walking tree isTree => by rw [Option.some.inj (walking.1.1.2.tree.symm.trans isTree)])
          (fun walking => by rw [walking.2.hierarchy]) fun walking => walking.1.2
      have both : Agrees _ site _ [] (_ >>= fun _ => pure { decl with init := some walked })
          (_ >>= fun _ => pure { decl with init := some init' }) fun _ _ => True :=
        observed.bindSilent fun _ _ => .pure fun _ => trivial
      dsimp only
      cases isId : before.tree.find? around decl.name.name with
      | none =>
          rw [isId] at both
          exact both
      | some id =>
          rw [isId] at both
          cases isKnown : (state.hierarchy.info site.current).attributeAt? decl.name.name decl.name.position with
          | none =>
              rw [isKnown] at both
              exact both
          | some attr =>
              rw [isKnown] at both
              exact both

omit rests in
theorem agrees_mergeParams (owner : TypeId) (name : String) (start : Nat) (ids : List VariableId) :
    Agrees given site place [] (mergeParams owner name start ids) (Pure.pure ()) fun _ _ => True :=
  ⟨fun state => (mergeParams_runs owner name start ids state).1, fun _ _ _ _ => ⟨trivial, .pure ()⟩⟩

theorem agrees_observeResult {around scope : ScopeId} (decl : MethodDecl) {known : Method} {type told : TypeId}
    (position : Position)
    (backed : given → ∀ tree ∈ site.tree,
      (Visit.feature site.current around scope (.method decl)).Backed site.hierarchy tree)
    (isKnown : given →
      (site.hierarchy.info site.current).methodAt? decl.name.name decl.name.position = some known)
    (same : given → type = told ∧ type.Absolute site.hierarchy.types.size) :
    Agrees given site place [] (observeResult site.current decl.name.name type)
      (Survey.flow (.result decl) told (site.resultType decl) position) fun _ _ => True := by
  refine ⟨fun state => .learn (.result site.current decl.name.name type) .done,
    fun isGiven state stands quiet => ⟨trivial, .flow _ fun isAuto => ?_⟩⟩
  obtain ⟨rfl, absolute⟩ := same isGiven
  have isKnown := isKnown isGiven
  have isOpen := backed isGiven state.tree stands.tree isAuto known isKnown
  have isMethod := (Option.filter_eq_some_iff.mp isKnown).1
  rw [Surroundings.resultType, isKnown]
  have observed := congrArg Method.result
    (updateMethod_quiet stands.facing.noDrift quiet (stands.hierarchy ▸ isMethod))
  rw [stands.hierarchy] at observed
  exact Variable.conforms_of_observed rests.rooted
    (rests.methods site.current known (List.mem_of_find?_eq_some isMethod)).result isOpen absolute observed _

theorem inferMethod_agrees (around scope : ScopeId) (decl : MethodDecl)
    (backed : given → ∀ tree ∈ site.tree,
      (Visit.feature site.current around scope (.method decl)).Backed site.hierarchy tree) :
    Agrees given site 0 (Feature.method decl).nests (inferMethod site.current scope decl)
      (site.surveyMethod decl) fun _ _ => True := by
  unfold inferMethod Site.surveyMethod
  rw [Feature.nests]
  refine .skip .get fun state => ?_
  dsimp only
  cases isKnown : (state.hierarchy.info site.current).methodAt? decl.name.name decl.name.position with
  | none =>
      have unobserved (told : Expr × TypeId) (type : TypeId) : Agrees ((given ∧ Stands site 0 [] state) ∧
          type = told.2 ∧ type.Absolute site.hierarchy.types.size) site (0 + decl.body.nests.length) []
          (Pure.pure ()) (Survey.flow (.result decl) told.2 (site.resultType decl) told.1.position)
          fun _ _ => True := by
        refine ⟨fun _ => .done, fun walking _ _ _ => ⟨trivial, .flow _ fun isAuto => ?_⟩⟩
        have stands := walking.1.2
        rw [Surroundings.resultType, ← stands.hierarchy, isKnown, stands.hierarchy]
        exact rests.conforms_declaredType isAuto told.2
      refine (infer_agrees site rests _ 0 decl.body).bindSilent ?_
      rintro ⟨_, type⟩ told
      exact (unobserved told type).bindSilent fun _ _ => .pure fun _ => trivial
  | some known =>
      refine .skip (agrees_mergeParams _ _ 0 _) fun _ => (infer_agrees site rests _ 0 decl.body).bindSilent ?_
      rintro ⟨_, type⟩ ⟨body, told⟩
      refine .skip (agrees_mergeParams _ _ 0 _) fun _ => ?_
      exact (agrees_observeResult rests decl body.position (fun walking => backed walking.1.1.1.1)
        (fun walking => walking.1.1.1.2.hierarchy ▸ isKnown) fun walking => walking.1.2).bindSilent
        fun _ _ => .pure fun _ => trivial

theorem inferFeature_agrees {around : ScopeId} (place : Nat) (feature : Feature)
    (backed : given → ∀ tree ∈ site.tree,
      (Visit.feature site.current around (tree.child around place) feature).Backed site.hierarchy tree) :
    Agrees given site place [.scope feature.nests] (inferFeature site.current around feature)
      (site.surveyFeature place feature) fun _ _ => True := by
  have inside (inner : ScopeId) : Agrees (given ∧ inner = site.child place)
      (site.inside place (site.featureVariables feature)) 0 feature.nests (inferInside site.current around inner feature)
      (site.surveyFeature place feature) fun _ _ => True := by
    rcases feature with decl | decl
    · let named : Site := { site.inside place (site.featureVariables (.attribute decl)) with feature := decl.name.name }
      have rests : Rests named.hierarchy named.current named.tree := rests
      exact .of_same named rfl rfl rfl rfl <| (inferAttribute_agrees rests around inner decl
        fun ⟨isGiven, _⟩ => backed isGiven).bindSilent fun _ _ => .pure fun _ => trivial
    · let named : Site := { site.inside place (site.featureVariables (.method decl)) with feature := decl.name.name }
      have rests : Rests named.hierarchy named.current named.tree := rests
      exact .of_same named rfl rfl rfl rfl <| (inferMethod_agrees rests around inner decl
        fun ⟨isGiven, _⟩ => backed isGiven).bindSilent fun _ _ => .pure fun _ => trivial
  have opened := Agrees.inside (fun inner => inferInside site.current around inner feature) _ rests.wellFormed inside
  rcases feature with decl | decl
  · exact opened
  · exact opened

theorem inferFeatures_agrees {around : ScopeId} (place : Nat) (features : List Feature)
    (backed : given → ∀ tree ∈ site.tree,
      ∀ visit ∈ featureVisits tree site.current around place features, visit.Backed site.hierarchy tree) :
    Agrees given site place (features.map fun feature => .scope feature.nests)
      (inferFeatures site.current around features) (site.surveyFeatures place features) fun _ _ => True := by
  induction features generalizing given place with
  | nil => exact .pure fun _ => trivial
  | cons feature features ih =>
      refine (inferFeature_agrees rests place feature fun isGiven tree isTree => ?_).bind fun _ _ =>
        (ih (place + 1) fun ⟨isGiven, _⟩ tree isTree visit member => ?_).bindSilent fun _ _ => .pure fun _ => trivial
      · exact backed isGiven tree isTree _ List.mem_cons_self
      · exact backed isGiven tree isTree visit (List.mem_cons_of_mem _ member)

end

/-! ### Classes -/

section

theorem agrees_recordAttributes (owner : TypeId) (scope : ScopeId) :
    Agrees given site place [] (recordAttributes owner scope) (Pure.pure ()) fun _ _ => True :=
  ⟨fun _ => .learn (.record owner scope) .done, fun _ _ _ _ => ⟨trivial, .pure ()⟩⟩

variable {hierarchy : Hierarchy} {tree : ScopeTree}
  (rests : ∀ type, hierarchy.IsClass type → Rests hierarchy type (some tree))
include rests

/-- The site of a program, from which the scopes of its classes are entered. -/
def programSite (hierarchy : Hierarchy) (tree : ScopeTree) (current : TypeId) : Site :=
  ⟨⟨hierarchy, current, ""⟩, some tree, ScopeTree.root, []⟩

theorem inferClass_agrees {type current : TypeId} (isClass : hierarchy.IsClass type) (all : ClassTypes) (place : Nat)
    (decl : ClassDecl)
    (backed : ∀ visit ∈ featureVisits tree type (tree.child ScopeTree.root place) 0 decl.features,
      visit.Backed hierarchy tree) :
    Agrees given (programSite hierarchy tree current) place [.scope decl.nests] (inferClass type decl)
      (Site.surveyClass (Site.ofClass hierarchy (some tree) all type place) decl) fun _ _ => True := by
  let site := programSite hierarchy tree type
  have inside (scope : ScopeId) : Agrees (given ∧ scope = site.child place)
      (site.inside place (Site.attributes hierarchy all type)) 0 decl.nests
      (inferFeatures type scope decl.features >>= fun features => recordAttributes type scope >>= fun _ =>
        pure { decl with features := features })
      (Site.surveyClass (Site.ofClass hierarchy (some tree) all type place) decl) fun _ _ => True :=
    (inferFeatures_agrees (rests type isClass) 0 decl.features fun ⟨_, isScope⟩ _ isTree => by
      obtain rfl := Option.some.inj isTree
      rw [isScope]
      exact backed).bindSilent fun _ _ => .skip (agrees_recordAttributes type scope) fun _ => .pure fun _ => trivial
  exact .of_same site rfl rfl rfl rfl (Agrees.inside _ _ (rests type isClass).wellFormed inside)

theorem inferClasses_agrees {current : TypeId} (all : ClassTypes) (place : Nat) {decls : List ClassDecl}
    {types : ClassTypes} {ids : List ScopeId} (areClasses : ∀ type, some type ∈ types → hierarchy.IsClass type)
    (left : (tree.children ScopeTree.root).drop place = ids)
    (fits : Nest.AllAt tree place (Program.nests ⟨decls⟩ types) ids)
    (backed : ∀ visit ∈ classVisits tree decls types ids, visit.Backed hierarchy tree) :
    Agrees given (programSite hierarchy tree current) place (Program.nests ⟨decls⟩ types) (inferClasses decls types)
      (Site.surveyClasses hierarchy (some tree) all place decls types) fun _ _ => True := by
  induction decls generalizing types ids place given with
  | nil => exact .pure fun _ => trivial
  | cons decl decls ih =>
      rcases types with _ | ⟨_ | type, types⟩
      · exact .pure fun _ => trivial
      · exact (ih place (fun type member => areClasses type (List.mem_cons_of_mem _ member)) left fits backed).bindSilent
          fun _ _ => .pure fun _ => trivial
      · rw [show Program.nests ⟨decl :: decls⟩ (some type :: types) =
          .scope decl.nests :: Program.nests ⟨decls⟩ types from rfl] at fits ⊢
        obtain _ | ⟨scope, ids⟩ := ids
        · exact fits.elim
        · obtain ⟨_, _, later⟩ := fits
          obtain ⟨isNext, rest⟩ := next_of_drop left
          have isChild := ScopeTree.child_of_getElem? isNext
          rw [classVisits] at backed
          obtain ⟨ofFeatures, ofLater⟩ := List.forall_mem_append.mp backed
          exact (inferClass_agrees rests (areClasses type List.mem_cons_self) all place decl
            (isChild ▸ ofFeatures)).bind fun _ _ =>
            (ih (place + 1) (fun type member => areClasses type (List.mem_cons_of_mem _ member)) rest later
              (List.forall_mem_cons.mp ofLater).2).bindSilent fun _ _ => .pure fun _ => trivial

end

/-- Over a tree with the scopes of a program, a survey has no inferred declaration to blame once a walk learns
nothing. -/
theorem walk_blameless {types : ClassTypes} {program : Program} {state : InferenceState}
    (rests : ∀ type, state.hierarchy.IsClass type → Rests state.hierarchy type (some state.tree))
    (areClasses : ∀ type, some type ∈ types → state.hierarchy.IsClass type) (grounded : state.tree.Grounded)
    (outline : state.tree.skeleton = Nest.outline (program.nests types))
    (quiet : Quiet (walk types program state).2)
    (backed : ∀ visit ∈ visits program types state.tree, visit.Backed state.hierarchy state.tree) :
    (program.survey types state.hierarchy (some state.tree)).Blameless state.hierarchy := by
  obtain ⟨noDrift, _⟩ := walk_quiet quiet
  have fits := (Nest.outline_at (program.nests types)).1
  rw [← outline, Nest.at_skeleton, Nest.At] at fits
  have sees := ScopeTree.sees_root grounded.known grounded.outermost
  rw [ScopeTree.slots, grounded.bare, List.map_nil] at sees
  rw [walk_last quiet.2, beginWalk_of_none noDrift] at quiet
  have stands : Stands (programSite state.hierarchy state.tree default) 0 (program.nests types)
      { state with cursor := .initial, changed := false } :=
    ⟨rfl, rfl, sees, rfl, noDrift, ⟨_, _, rfl⟩, _, [], (List.append_nil _).symm, fits⟩
  have agrees : Agrees True (programSite state.hierarchy state.tree default) 0 (program.nests types)
      (inferClasses program.classes types) _ _ :=
    inferClasses_agrees rests types 0 areClasses rfl fits backed
  exact (agrees.finds trivial _ stands quiet).2.bind (.pure _)

end Inference

end CoolLang
