import CoolLang.Proofs.Hierarchy.Renaming
import CoolLang.Proofs.Typing.Independence

/-!
Typing in hierarchies and scopes that correspond. Typing asks a hierarchy for what names mean, for ancestors and for
features, and scopes for the types of variables. Where the answers are the same under a renaming of types, so are
the types of all expressions, and what is reported (`Site.Matches.surveyFeatures`).
-/

namespace CoolLang

variable {rename : TypeId → TypeId}

/-! ### Answers -/

/-- Whether of two variables one has the type of the other, renamed. -/
structure Variable.Matches (rename : TypeId → TypeId) (one two : Variable) : Prop where
  name : two.name = one.name
  type : two.type = rename one.type

structure Attribute.Matches (rename : TypeId → TypeId) (one two : Attribute) : Prop where
  name : two.name = one.name
  position : two.position = one.position
  type : two.type = rename one.type

structure Method.Matches (rename : TypeId → TypeId) (one two : Method) : Prop where
  name : two.name = one.name
  position : two.position = one.position
  params : List.Forall₂ (Variable.Matches rename) one.params two.params
  result : Variable.Matches rename one.result two.result

/-- Whether two hierarchies answer the same, up to a renaming of types, to all that typing asks. -/
structure Hierarchy.Answers (rename : TypeId → TypeId) (one two : Hierarchy) : Prop
    extends TypeId.Renumbers rename where
  find? : ∀ name, two.find? name = (one.find? name).map rename
  name : ∀ type, two.name (rename type) = one.name type
  ancestors : ∀ type, two.ancestors (rename type) = (one.ancestors type).map rename
  attributes : ∀ type, List.Forall₂ (Attribute.Matches rename) (one.info type).attributes
    (two.info (rename type)).attributes
  methods : ∀ type, List.Forall₂ (Method.Matches rename) (one.info type).methods (two.info (rename type)).methods

theorem Variable.matches_declared (name : String) (type : TypeId) :
    Matches rename (.declared name type) (.declared name (rename type)) :=
  ⟨rfl, rfl⟩

/-- What is looked for in the one list is found where it is found in the other. -/
theorem find?_of_forall₂ {α β : Type} {same : α → β → Prop} {p : α → Bool} {q : β → Bool} {items : List α}
    {others : List β} (all : List.Forall₂ same items others) (told : ∀ item other, same item other → q other = p item) :
    Option.Rel same (items.find? p) (others.find? q) := by
  induction all with
  | nil => exact .none
  | cons first _ ih =>
      rw [List.find?_cons, List.find?_cons, told _ _ first]
      split
      · exact .some first
      · exact ih

namespace Hierarchy.Answers

variable {one two : Hierarchy} (answers : Answers rename one two)
include answers

theorem get (name : String) : two.get name = (one.get name).map rename := by
  unfold Hierarchy.get
  rw [answers.find?]
  cases one.find? name <;> rfl

theorem conforms (type expected : TypeId) :
    two.conforms (rename type) (rename expected) = one.conforms type expected := by
  unfold Hierarchy.conforms
  rw [answers.isChecked, answers.isChecked, answers.ancestors, answers.contains]

theorem union (left right : TypeId) : two.union (rename left) (rename right) = rename (one.union left right) := by
  have found : ((one.ancestors right).map rename).find? ((one.ancestors left).map rename).contains =
      ((one.ancestors right).find? (one.ancestors left).contains).map rename := by
    rw [List.find?_map]
    exact congrArg (fun p => ((one.ancestors right).find? p).map rename) (funext fun type => answers.contains _ type)
  unfold Hierarchy.union
  rw [answers.isChecked, answers.isChecked, answers.beq, answers.ancestors, answers.ancestors, found]
  split
  · rfl
  · split
    · rfl
    · rw [← answers.builtin .object (by decide), Option.getD_map, answers.builtin .object (by decide)]

theorem attributeAt? (type : TypeId) (name : String) (position : Position) :
    Option.Rel (Attribute.Matches rename) ((one.info type).attributeAt? name position)
      ((two.info (rename type)).attributeAt? name position) :=
  find?_of_forall₂ (answers.attributes type) fun attr attr' same => by rw [same.name, same.position]

theorem ownMethod? (type : TypeId) (name : String) :
    Option.Rel (Method.Matches rename) ((one.info type).method? name) ((two.info (rename type)).method? name) :=
  find?_of_forall₂ (answers.methods type) fun method method' same => by rw [same.name]

theorem methodAt? (type : TypeId) (name : String) (position : Position) :
    Option.Rel (Method.Matches rename) ((one.info type).methodAt? name position)
      ((two.info (rename type)).methodAt? name position) := by
  have found := answers.ownMethod? type name
  unfold TypeInfo.methodAt?
  generalize (one.info type).method? name = method at found ⊢
  generalize (two.info (rename type)).method? name = method' at found ⊢
  cases found with
  | none => exact .none
  | some same =>
      simp only [Option.filter_some, same.position]
      split
      · exact .some same
      · exact .none

theorem method? (type : TypeId) (name : String) :
    Option.Rel (fun found found' => Method.Matches rename found.2 found'.2) (one.method? type name)
      (two.method? (rename type) name) := by
  unfold Hierarchy.method?
  rw [answers.ancestors]
  induction one.ancestors type with
  | nil => exact .none
  | cons owner owners ih =>
      have found := answers.ownMethod? owner name
      rw [List.map_cons, List.findSome?_cons, List.findSome?_cons]
      generalize (one.info owner).method? name = method at found ⊢
      generalize (two.info (rename owner)).method? name = method' at found ⊢
      cases found with
      | none => exact ih
      | some same => exact .some same

end Hierarchy.Answers

/-! ### Places -/

/-- Whether two trees have the same scopes, with the same variables in them up to a renaming of types. -/
structure ScopeTree.Matches (rename : TypeId → TypeId) (one two : ScopeTree) : Prop where
  children : ∀ scope, two.children scope = one.children scope
  slots : ∀ scope, List.Forall₂ (Variable.Matches rename) (one.slots scope) (two.slots scope)

/-- Whether two surroundings are those of the same feature. -/
structure Surroundings.Matches (rename : TypeId → TypeId) (one two : Surroundings) : Prop where
  answers : Hierarchy.Answers rename one.hierarchy two.hierarchy
  current : two.current = rename one.current
  feature : two.feature = one.feature

structure Site.Matches (rename : TypeId → TypeId) (one two : Site) : Prop
    extends Surroundings.Matches rename one.toSurroundings two.toSurroundings where
  tree : Option.Rel (ScopeTree.Matches rename) one.tree two.tree
  scope : two.scope = one.scope
  env : List.Forall₂ (Variable.Matches rename) one.env two.env

/-- Surveys of which one comes to the value of the other, renamed, and to the same reports. -/
abbrev Survey.Renames {α β : Type} (one two : Hierarchy) (change : α → β) (first : Survey α)
    (second : Survey β) : Prop :=
  Agrees one two (fun value value' => value' = change value) first second

namespace Survey.Renames

variable {α β γ δ : Type} {one two : Hierarchy} {change : α → β} {change' : γ → δ} {first : Survey α}
  {second : Survey β}

theorem bind {next : α → Survey γ} {next' : β → Survey δ} (renames : Renames one two change first second)
    (renames' : ∀ value, Renames one two change' (next value) (next' (change value))) :
    Renames one two change' (first >>= next) (second >>= next') :=
  Agrees.bind renames fun value _ told => told ▸ renames' value

theorem pure {value : α} {value' : β} (told : value' = change value) :
    Renames one two change (Pure.pure value) (Pure.pure value') :=
  Agrees.pure told

theorem fault (position : Position) (problem : Problem) :
    Renames one two id (Survey.fault position problem) (Survey.fault position problem) :=
  ⟨rfl, rfl⟩

theorem flow (answers : Hierarchy.Answers rename one two) (target target' : Target) (type expected : TypeId)
    (position : Position) : Renames one two id (Survey.flow target type expected position)
      (Survey.flow target' (rename type) (rename expected) position) := by
  refine ⟨rfl, ?_⟩
  change Finding.diagnostics two _ ++ [] = Finding.diagnostics one _ ++ []
  rw [Finding.diagnostics, Finding.diagnostics, answers.conforms, answers.name, answers.name]

end Survey.Renames

namespace Surroundings.Matches

variable {one two : Surroundings} (alike : Matches rename one two)
include alike

theorem resolveSelf (type : TypeId) : two.resolveSelf (rename type) = rename (one.resolveSelf type) := by
  unfold Surroundings.resolveSelf
  rw [alike.current, alike.answers.resolveIn]

theorem comparable (left right : TypeId) :
    two.comparable (rename left) (rename right) = one.comparable left right := by
  have primitive (type : TypeId) {builtin : TypeId} (small : builtin.index < 8) :
      two.hierarchy.conforms (rename type) builtin = one.hierarchy.conforms type builtin := by
    rw [← alike.answers.conforms, alike.answers.builtin builtin small]
  unfold Surroundings.comparable
  rw [alike.answers.isConcrete, alike.answers.isConcrete]
  simp only [List.all_cons, List.all_nil, primitive _ (show TypeId.int.index < 8 by decide),
    primitive _ (show TypeId.string.index < 8 by decide), primitive _ (show TypeId.bool.index < 8 by decide)]

theorem admits (operator : Operator) (left right : TypeId) :
    two.admits operator (rename left) (rename right) = one.admits operator left right := by
  have int (type : TypeId) : two.hierarchy.conforms (rename type) .int = one.hierarchy.conforms type .int := by
    rw [← alike.answers.conforms, alike.answers.builtin .int (by decide)]
  unfold Surroundings.admits
  cases operator with
  | equal => exact alike.comparable left right
  | _ => simp only [int]

theorem declaredType (written : Ident) : two.declaredType written = rename (one.declaredType written) := by
  unfold Surroundings.declaredType
  rw [alike.answers.find?, ← alike.answers.builtin .error (by decide), Option.getD_map, alike.resolveSelf,
    alike.answers.builtin .error (by decide)]

theorem attributeType (decl : AttributeDecl) : two.attributeType decl = rename (one.attributeType decl) := by
  have known := alike.answers.attributeAt? one.current decl.name.name decl.name.position
  unfold Surroundings.attributeType
  rw [alike.current]
  generalize (one.hierarchy.info one.current).attributeAt? decl.name.name decl.name.position = attr at known ⊢
  generalize (two.hierarchy.info (rename one.current)).attributeAt? decl.name.name decl.name.position = attr' at known ⊢
  cases known with
  | none => exact alike.declaredType decl.type
  | some same => exact (congrArg _ same.type).trans (alike.resolveSelf _)

theorem resultType (decl : MethodDecl) : two.resultType decl = rename (one.resultType decl) := by
  have known := alike.answers.methodAt? one.current decl.name.name decl.name.position
  unfold Surroundings.resultType
  rw [alike.current]
  generalize (one.hierarchy.info one.current).methodAt? decl.name.name decl.name.position = method at known ⊢
  generalize (two.hierarchy.info (rename one.current)).methodAt? decl.name.name decl.name.position = method' at known ⊢
  cases known with
  | none => exact alike.declaredType decl.result
  | some same => exact (congrArg _ same.result.type).trans (alike.resolveSelf _)

theorem paramType (param : Param) : two.paramType param = rename (one.paramType param) := by
  unfold Surroundings.paramType
  rw [alike.answers.find?]
  cases one.hierarchy.find? param.type.name with
  | none => exact (alike.answers.builtin .error (by decide)).symm
  | some type =>
      dsimp only [Option.map_some]
      by_cases isSelf : type = .selfType
      · rw [if_pos isSelf, if_pos ((alike.answers.eq_builtin_iff (by decide)).mpr isSelf),
          alike.answers.builtin .error (by decide)]
      · rw [if_neg isSelf, if_neg (mt (alike.answers.eq_builtin_iff (by decide)).mp isSelf)]

theorem featureVariables (feature : Feature) : List.Forall₂ (Variable.Matches rename)
    (one.featureVariables feature) (two.featureVariables feature) := by
  have self : Variable.Matches rename (.declared "self" one.current) (.declared "self" two.current) :=
    ⟨rfl, alike.current⟩
  rcases feature with decl | decl
  · exact .cons self .nil
  · refine .cons self ?_
    rw [List.forall₂_map_left_iff, List.forall₂_map_right_iff, List.forall₂_same]
    exact fun param _ => ⟨rfl, alike.paramType param⟩

end Surroundings.Matches

/-! ### Steps -/

namespace Site.Matches

variable {one two : Site} (alike : Matches rename one two)
include alike

theorem child (place : Nat) : two.child place = one.child place := by
  have sameTree := alike.tree
  unfold Site.child
  rw [alike.scope]
  generalize one.tree = tree at sameTree ⊢
  generalize two.tree = tree' at sameTree ⊢
  cases sameTree with
  | none => rfl
  | some same =>
      unfold ScopeTree.child
      simp only [Option.elim_some, same.children]

theorem slots (place : Nat) {written written' : List Variable}
    (same : List.Forall₂ (Variable.Matches rename) written written') :
    List.Forall₂ (Variable.Matches rename) (one.slots place written) (two.slots place written') := by
  have sameTree := alike.tree
  unfold Site.slots
  rw [alike.child]
  generalize one.tree = tree at sameTree ⊢
  generalize two.tree = tree' at sameTree ⊢
  cases sameTree with
  | none => exact same
  | some matched => exact matched.slots _

theorem inside (place : Nat) {written written' : List Variable}
    (same : List.Forall₂ (Variable.Matches rename) written written') :
    Matches rename (one.inside place written) (two.inside place written') where
  toMatches := alike.toMatches
  tree := alike.tree
  scope := alike.child place
  env := List.rel_append (alike.slots place same) alike.env

/-- The variable that a binding declares. -/
theorem bound (place : Nat) {written written' : Variable} (same : written.Matches rename written') :
    Variable.Matches rename ((one.slots place [written]).headD written)
      ((two.slots place [written']).headD written') := by
  have sameSlots := alike.slots place (.cons same .nil)
  generalize one.slots place [written] = slots at sameSlots ⊢
  generalize two.slots place [written'] = slots' at sameSlots ⊢
  cases sameSlots with
  | nil => exact same
  | cons first _ => exact first

theorem lookUp? (name : String) :
    Option.Rel (Variable.Matches rename) (one.lookUp? name) (two.lookUp? name) :=
  find?_of_forall₂ alike.env fun info info' same => by rw [same.name]

/-- A value flows to where a built-in type is expected. -/
theorem flow_builtin {builtin : TypeId} (small : builtin.index < 8) (type : TypeId) (position : Position) :
    Survey.Renames one.hierarchy two.hierarchy id (Survey.flow .operand type builtin position)
      (Survey.flow .operand (rename type) builtin position) := by
  have flows := Survey.Renames.flow alike.answers .operand .operand type builtin position
  rwa [alike.answers.builtin builtin small] at flows

theorem typeOfName (name : String) (position : Position) :
    Survey.Renames one.hierarchy two.hierarchy rename (one.typeOfName name position)
      (two.typeOfName name position) := by
  have found := alike.lookUp? name
  unfold Site.typeOfName
  rw [alike.feature]
  generalize one.lookUp? name = info at found ⊢
  generalize two.lookUp? name = info' at found ⊢
  cases found with
  | none => exact (Survey.Renames.fault ..).bind fun _ => .pure (alike.answers.builtin .error (by decide)).symm
  | some same => exact .pure ((congrArg _ same.type).trans (alike.resolveSelf _))

theorem surveyTarget (target : Ident) (type : TypeId) (position : Position) :
    Survey.Renames one.hierarchy two.hierarchy id (one.surveyTarget target type position)
      (two.surveyTarget target (rename type) position) := by
  have found := alike.lookUp? target.name
  unfold Site.surveyTarget
  rw [alike.feature]
  split
  · exact .fault ..
  · generalize one.lookUp? target.name = info at found ⊢
    generalize two.lookUp? target.name = info' at found ⊢
    cases found with
    | none => exact .fault ..
    | some same =>
        dsimp only
        rw [same.type, alike.resolveSelf]
        exact .flow alike.answers ..

theorem dispatchType (receiver : TypeId) (cast : Option Ident) :
    Survey.Renames one.hierarchy two.hierarchy rename (one.dispatchType receiver cast)
      (two.dispatchType (rename receiver) cast) := by
  have error := (alike.answers.builtin .error (by decide)).symm
  cases cast with
  | none => exact .pure rfl
  | some written =>
      unfold Site.dispatchType
      dsimp only
      rw [alike.answers.get]
      cases one.hierarchy.get written.name with
      | error => exact (Survey.Renames.fault ..).bind fun _ => .pure error
      | ok type =>
          dsimp only [Except.map]
          rw [alike.answers.isConcrete]
          split
          · exact (Survey.Renames.flow alike.answers ..).bind fun _ => .pure rfl
          · exact (Survey.Renames.fault ..).bind fun _ => .pure error

theorem callee (owner : TypeId) (method : Ident) (args : Nat) :
    Survey.Agrees one.hierarchy two.hierarchy
      (Sum.LiftRel (Method.Matches rename) fun type type' => type' = rename type) (one.callee owner method args)
      (two.callee (rename owner) method args) := by
  have error : Survey.Agrees one.hierarchy two.hierarchy
      (Sum.LiftRel (Method.Matches rename) fun type type' => type' = rename type)
      (pure (Sum.inr TypeId.error)) (pure (Sum.inr TypeId.error)) :=
    .pure (.inr (alike.answers.builtin .error (by decide)).symm)
  have found := alike.answers.method? owner method.name
  unfold Site.callee
  rw [alike.answers.isConcrete, alike.answers.name]
  split
  · exact .pure (.inr rfl)
  · generalize one.hierarchy.method? owner method.name = known at found ⊢
    generalize two.hierarchy.method? (rename owner) method.name = known' at found ⊢
    cases found with
    | none => exact Survey.Agrees.bind (Survey.Renames.fault ..) fun _ _ _ => error
    | some same =>
        dsimp only
        rw [same.params.length_eq]
        split
        · exact .pure (.inl same)
        · exact Survey.Agrees.bind (Survey.Renames.fault ..) fun _ _ _ => error

theorem bindingType (written : Option Ident) :
    Survey.Renames one.hierarchy two.hierarchy rename (one.bindingType written) (two.bindingType written) := by
  cases written with
  | none => exact .pure (alike.answers.builtin .autoType (by decide)).symm
  | some written =>
      unfold Site.bindingType
      dsimp only
      rw [alike.answers.get]
      cases one.hierarchy.get written.name with
      | ok type => exact .pure (alike.resolveSelf type)
      | error => exact (Survey.Renames.fault ..).bind fun _ => .pure (alike.answers.builtin .error (by decide)).symm

theorem branchType (seen : List TypeId) (written : Ident) :
    Survey.Renames one.hierarchy two.hierarchy (Prod.map rename (List.map rename)) (one.branchType seen written)
      (two.branchType (seen.map rename) written) := by
  have error : (TypeId.error, seen.map rename) = Prod.map rename (List.map rename) (TypeId.error, seen) :=
    congrArg (·, _) (alike.answers.builtin .error (by decide)).symm
  unfold Site.branchType
  rw [alike.answers.get]
  cases one.hierarchy.get written.name with
  | error => exact (Survey.Renames.fault ..).bind fun _ => .pure error
  | ok type =>
      have isSeen : rename type ∈ seen.map rename ↔ type ∈ seen :=
        List.mem_map_of_injective alike.answers.injective
      dsimp only [Except.map]
      rw [alike.answers.isConcrete]
      split
      · exact (Survey.Renames.fault ..).bind fun _ => .pure error
      · by_cases member : type ∈ seen
        · rw [if_pos member, if_pos (isSeen.mpr member)]
          exact (Survey.Renames.fault ..).bind fun _ => .pure rfl
        · rw [if_neg member, if_neg (mt isSeen.mp member)]
          exact .pure (by rw [Prod.map_apply, List.map_append, List.map_singleton])

theorem newType (written : Ident) :
    Survey.Renames one.hierarchy two.hierarchy rename (one.newType written) (two.newType written) := by
  have error := (alike.answers.builtin .error (by decide)).symm
  unfold Site.newType
  rw [alike.answers.get]
  cases one.hierarchy.get written.name with
  | error => exact (Survey.Renames.fault ..).bind fun _ => .pure error
  | ok type =>
      dsimp only [Except.map]
      by_cases isSelf : type = .selfType
      · rw [if_pos isSelf, if_pos ((alike.answers.eq_builtin_iff (by decide)).mpr isSelf)]
        exact .pure alike.current
      · rw [if_neg isSelf, if_neg (mt (alike.answers.eq_builtin_iff (by decide)).mp isSelf)]
        by_cases isAuto : type = .autoType
        · rw [if_pos isAuto, if_pos ((alike.answers.eq_builtin_iff (by decide)).mpr isAuto)]
          exact (Survey.Renames.fault ..).bind fun _ => .pure error
        · rw [if_neg isAuto, if_neg (mt (alike.answers.eq_builtin_iff (by decide)).mp isAuto)]
          exact .pure rfl

end Site.Matches

/-! ### Expressions -/

theorem Expr.position_retype (expr : Expr) : (expr.retype rename).position = expr.position := by
  cases expr <;> rfl

namespace Site.Matches

/-- The parameters that are matched with arguments. -/
theorem calleeParams {callee callee' : Method ⊕ TypeId}
    (same : Sum.LiftRel (Method.Matches rename) (fun type type' => type' = rename type) callee callee') :
    List.Forall₂ (Variable.Matches rename) (Site.calleeParams callee) (Site.calleeParams callee') := by
  cases same with
  | inl same => exact same.params
  | inr _ => exact .nil

theorem calleeResult (renumbers : TypeId.Renumbers rename) (receiver : TypeId) {callee callee' : Method ⊕ TypeId}
    (same : Sum.LiftRel (Method.Matches rename) (fun type type' => type' = rename type) callee callee') :
    Site.calleeResult (rename receiver) callee' = rename (Site.calleeResult receiver callee) := by
  cases same with
  | inl same => exact (congrArg (TypeId.resolveIn · _) same.result.type).trans (renumbers.resolveIn _ _)
  | inr same => exact same

mutual

theorem survey {one two : Site} (alike : Matches rename one two) (place : Nat) : (expr : Expr) →
    Survey.Renames one.hierarchy two.hierarchy (Prod.map (Expr.retype rename) rename) (one.survey place expr)
      (two.survey place expr)
  | .integer note value => by
      rw [Site.survey, Site.survey]
      exact .pure (congrArg (fun type => (Expr.integer (note.typed type) value, type))
        (alike.answers.builtin .int (by decide)).symm)
  | .string note value => by
      rw [Site.survey, Site.survey]
      exact .pure (congrArg (fun type => (Expr.string (note.typed type) value, type))
        (alike.answers.builtin .string (by decide)).symm)
  | .boolean note value => by
      rw [Site.survey, Site.survey]
      exact .pure (congrArg (fun type => (Expr.boolean (note.typed type) value, type))
        (alike.answers.builtin .bool (by decide)).symm)
  | .identifier note name => by
      rw [Site.survey, Site.survey]
      exact (alike.typeOfName name note.position).bind fun _ => .pure rfl
  | .assign note target value => by
      rw [Site.survey, Site.survey]
      refine (survey alike place value).bind fun ⟨value, type⟩ => ?_
      dsimp only [Prod.map_apply]
      rw [Expr.position_retype]
      exact (alike.surveyTarget target type value.position).bind fun _ => .pure rfl
  | .dispatch note receiver cast method args => by
      rw [Site.survey, Site.survey]
      exact (surveyReceiver alike place receiver).bind fun ⟨receiver, receiverType⟩ =>
        (alike.dispatchType receiverType cast).bind fun owner =>
        Survey.Agrees.bind (alike.callee owner method args.length) fun callee callee' same =>
        (surveyArgs alike _ args _ _ (calleeParams same)).bind fun args => .pure (congrArg
          (fun type => (Expr.dispatch (note.typed type) (Expr.retypeOption rename receiver) cast method
            (Expr.retypeAll rename args), type)) (calleeResult alike.answers.toRenumbers receiverType same))
  | .cond note test yes no => by
      rw [Site.survey, Site.survey]
      refine (survey alike place test).bind fun ⟨test', testType⟩ => ?_
      dsimp only [Prod.map_apply]
      rw [Expr.position_retype]
      refine (alike.flow_builtin (by decide) testType test'.position).bind fun _ =>
        (survey alike _ yes).bind fun ⟨yes, yesType⟩ => (survey alike _ no).bind fun ⟨no, noType⟩ => .pure ?_
      exact congrArg (fun type => (Expr.cond (note.typed type) (test'.retype rename) (yes.retype rename)
        (no.retype rename), type)) (alike.answers.union yesType noType)
  | .loop note test body => by
      rw [Site.survey, Site.survey]
      refine (survey alike place test).bind fun ⟨test', testType⟩ => ?_
      dsimp only [Prod.map_apply]
      rw [Expr.position_retype]
      exact (alike.flow_builtin (by decide) testType test'.position).bind fun _ =>
        (survey alike _ body).bind fun ⟨body, _⟩ => .pure (congrArg
          (fun type => (Expr.loop (note.typed type) (test'.retype rename) (body.retype rename), type))
          (alike.answers.builtin .object (by decide)).symm)
  | .block note body => by
      rw [Site.survey, Site.survey]
      have start := surveyAll (alike.inside place .nil) 0 .object body
      rw [alike.answers.builtin .object (by decide)] at start
      exact start.bind fun ⟨body, type⟩ => .pure rfl
  | .letIn note bindings body => by
      rw [Site.survey, Site.survey]
      exact (surveyBindings alike place (fun _ _ alike place => survey alike place body) bindings).bind
        fun ⟨bindings, body, type⟩ => .pure rfl
  | .caseOf note scrutinee branches => by
      rw [Site.survey, Site.survey]
      refine (survey alike place scrutinee).bind fun ⟨scrutinee', _⟩ =>
        (surveyBranches alike _ [] none branches).bind fun ⟨branches, type⟩ => .pure ?_
      cases type with
      | none =>
          exact congrArg (fun type => (Expr.caseOf (note.typed type) (scrutinee'.retype rename)
            (Expr.retypeBranches rename branches), type)) (alike.answers.builtin .error (by decide)).symm
      | some type => rfl
  | .new note written => by
      rw [Site.survey, Site.survey]
      exact (alike.newType written).bind fun _ => .pure rfl
  | .isVoid note operand => by
      rw [Site.survey, Site.survey]
      exact (survey alike place operand).bind fun ⟨operand, _⟩ => .pure (congrArg
        (fun type => (Expr.isVoid (note.typed type) (operand.retype rename), type))
        (alike.answers.builtin .bool (by decide)).symm)
  | .not note operand => by
      rw [Site.survey, Site.survey]
      refine (survey alike place operand).bind fun ⟨operand, operandType⟩ => ?_
      dsimp only [Prod.map_apply]
      rw [Expr.position_retype]
      exact (alike.flow_builtin (by decide) operandType operand.position).bind fun _ => .pure (congrArg
        (fun type => (Expr.not (note.typed type) (operand.retype rename), type))
        (alike.answers.builtin .bool (by decide)).symm)
  | .complement note operand => by
      rw [Site.survey, Site.survey]
      refine (survey alike place operand).bind fun ⟨operand, operandType⟩ => ?_
      dsimp only [Prod.map_apply]
      rw [Expr.position_retype]
      exact (alike.flow_builtin (by decide) operandType operand.position).bind fun _ => .pure (congrArg
        (fun type => (Expr.complement (note.typed type) (operand.retype rename), type))
        (alike.answers.builtin .int (by decide)).symm)
  | .binary note operator left right => by
      rw [Site.survey, Site.survey]
      refine (survey alike place left).bind fun ⟨left', leftType⟩ =>
        (survey alike _ right).bind fun ⟨right, rightType⟩ => ?_
      have whole : Survey.Renames one.hierarchy two.hierarchy (Prod.map (Expr.retype rename) rename)
          (pure (.binary (note.typed operator.resultType) operator left' right, operator.resultType))
          (pure (.binary (note.typed operator.resultType) operator (left'.retype rename) (right.retype rename),
            operator.resultType)) :=
        .pure (congrArg (fun type => (Expr.binary (note.typed type) operator (left'.retype rename)
          (right.retype rename), type)) (alike.answers.builtin _ (by cases operator <;> decide)).symm)
      dsimp only [Prod.map_apply]
      rw [alike.admits, alike.answers.name, alike.answers.name]
      split
      · exact (Survey.Renames.fault ..).bind fun _ => whole
      · exact whole

theorem surveyReceiver {one two : Site} (alike : Matches rename one two) (place : Nat) :
    (receiver : Option Expr) →
    Survey.Renames one.hierarchy two.hierarchy (Prod.map (Expr.retypeOption rename) rename)
      (one.surveyReceiver place receiver) (two.surveyReceiver place receiver)
  | none => by
      rw [Site.surveyReceiver, Site.surveyReceiver]
      exact .pure (congrArg (none, ·) alike.current)
  | some receiver => by
      rw [Site.surveyReceiver, Site.surveyReceiver]
      exact (survey alike place receiver).bind fun _ => .pure rfl

theorem surveyArgs {one two : Site} (alike : Matches rename one two) (place : Nat) : (args : List Expr) →
    (params params' : List Variable) → List.Forall₂ (Variable.Matches rename) params params' →
    Survey.Renames one.hierarchy two.hierarchy (Expr.retypeAll rename) (one.surveyArgs place args params)
      (two.surveyArgs place args params')
  | [], _, _, _ => by
      rw [Site.surveyArgs, Site.surveyArgs]
      exact .pure rfl
  | arg :: args, [], _, .nil => by
      rw [Site.surveyArgs, Site.surveyArgs]
      exact (survey alike place arg).bind fun ⟨arg, _⟩ =>
        (surveyArgs alike _ args _ _ .nil).bind fun args => .pure rfl
  | arg :: args, param :: params, _, .cons (b := param') same later => by
      rw [Site.surveyArgs, Site.surveyArgs]
      refine (survey alike place arg).bind fun ⟨arg', type⟩ => ?_
      dsimp only [Prod.map_apply, List.head?_cons]
      rw [Expr.position_retype, same.type]
      exact (Survey.Renames.flow alike.answers ..).bind fun _ =>
        (surveyArgs alike _ args _ _ later).bind fun args => .pure rfl

theorem surveyAll {one two : Site} (alike : Matches rename one two) (place : Nat) (last : TypeId) :
    (exprs : List Expr) →
    Survey.Renames one.hierarchy two.hierarchy (Prod.map (Expr.retypeAll rename) rename)
      (one.surveyAll place last exprs) (two.surveyAll place (rename last) exprs)
  | [] => by
      rw [Site.surveyAll, Site.surveyAll]
      exact .pure rfl
  | expr :: exprs => by
      rw [Site.surveyAll, Site.surveyAll]
      exact (survey alike place expr).bind fun ⟨expr, type⟩ =>
        (surveyAll alike _ type exprs).bind fun ⟨exprs, type⟩ => .pure rfl

theorem surveyBindings {one two : Site} (alike : Matches rename one two) (place : Nat)
    {body : Site → Nat → Survey (Expr × TypeId)}
    (same : ∀ one two : Site, Matches rename one two → ∀ place, Survey.Renames one.hierarchy two.hierarchy
      (Prod.map (Expr.retype rename) rename) (body one place) (body two place)) :
    (bindings : List (Binding Expr)) →
    Survey.Renames one.hierarchy two.hierarchy
      (Prod.map (Expr.retypeBindings rename) (Prod.map (Expr.retype rename) rename))
      (one.surveyBindings place bindings body) (two.surveyBindings place bindings body)
  | [] => by
      rw [Site.surveyBindings, Site.surveyBindings]
      exact (same one two alike place).bind fun ⟨body, type⟩ => .pure rfl
  | ⟨name, written, init⟩ :: bindings => by
      rw [Site.surveyBindings, Site.surveyBindings]
      refine (alike.bindingType written).bind fun declared => (surveyInit alike place init).bind fun init' => ?_
      have bound : Variable.Matches rename _ _ := Variable.matches_declared name.name declared
      have later := surveyBindings (alike.inside (place + (Expr.nestsOption init).length) (.cons bound .nil)) 0 same
        bindings
      rcases init' with _ | ⟨init', type⟩
      · exact later.bind fun ⟨bindings, body, type⟩ => .pure rfl
      · dsimp only [Option.map_some, Prod.map_apply]
        rw [Expr.position_retype, (alike.bound _ bound).type]
        exact (Survey.Renames.flow alike.answers ..).bind fun _ => later.bind fun ⟨bindings, body, type⟩ => .pure rfl

theorem surveyInit {one two : Site} (alike : Matches rename one two) (place : Nat) : (init : Option Expr) →
    Survey.Renames one.hierarchy two.hierarchy (Option.map (Prod.map (Expr.retype rename) rename))
      (one.surveyInit place init) (two.surveyInit place init)
  | none => by
      rw [Site.surveyInit, Site.surveyInit]
      exact .pure rfl
  | some init => by
      rw [Site.surveyInit, Site.surveyInit]
      exact (survey alike place init).bind fun _ => .pure rfl

theorem surveyBranches {one two : Site} (alike : Matches rename one two) (place : Nat) (seen : List TypeId)
    (type : Option TypeId) : (branches : List (Branch Expr)) →
    Survey.Renames one.hierarchy two.hierarchy (Prod.map (Expr.retypeBranches rename) (Option.map rename))
      (one.surveyBranches place seen type branches)
      (two.surveyBranches place (seen.map rename) (type.map rename) branches)
  | [] => by
      rw [Site.surveyBranches, Site.surveyBranches]
      exact .pure rfl
  | ⟨name, written, body⟩ :: branches => by
      rw [Site.surveyBranches, Site.surveyBranches]
      refine (alike.branchType seen written).bind fun ⟨declared, seen⟩ => ?_
      refine (survey (alike.inside place (.cons (Variable.matches_declared name.name declared) .nil)) 0 body).bind
        fun ⟨body, bodyType⟩ => ?_
      have union : (type.map rename).elim (rename bodyType) (fun type => two.hierarchy.union type (rename bodyType)) =
          rename (type.elim bodyType fun type => one.hierarchy.union type bodyType) := by
        cases type with
        | none => rfl
        | some type => exact alike.answers.union type bodyType
      dsimp only [Prod.map_apply]
      rw [union]
      exact (surveyBranches alike (place + 1) seen (some _) branches).bind fun ⟨branches, type⟩ => .pure rfl

end

/-! ### Features -/

variable {one two : Site} (alike : Matches rename one two)
include alike

theorem surveyAttribute (decl : AttributeDecl) :
    Survey.Renames one.hierarchy two.hierarchy (AttributeDecl.retype rename) (one.surveyAttribute decl)
      (two.surveyAttribute decl) := by
  obtain ⟨name, written, _ | init⟩ := decl
  · exact .pure rfl
  · refine (alike.survey 0 init).bind fun ⟨init', type⟩ => ?_
    dsimp only [Prod.map_apply]
    rw [Expr.position_retype, alike.attributeType]
    exact (Survey.Renames.flow alike.answers ..).bind fun _ => .pure rfl

theorem surveyMethod (decl : MethodDecl) :
    Survey.Renames one.hierarchy two.hierarchy (MethodDecl.retype rename) (one.surveyMethod decl)
      (two.surveyMethod decl) := by
  refine (alike.survey 0 decl.body).bind fun ⟨body, type⟩ => ?_
  dsimp only [Prod.map_apply]
  rw [Expr.position_retype, alike.resultType]
  exact (Survey.Renames.flow alike.answers ..).bind fun _ => .pure rfl

theorem withFeature (name : String) : Matches rename { one with feature := name } { two with feature := name } :=
  { alike with feature := rfl }

theorem surveyFeature (place : Nat) (feature : Feature) :
    Survey.Renames one.hierarchy two.hierarchy (Feature.retype rename) (one.surveyFeature place feature)
      (two.surveyFeature place feature) := by
  have inner := alike.inside place (alike.featureVariables feature)
  rcases feature with decl | decl
  · exact ((inner.withFeature decl.name.name).surveyAttribute decl).bind fun _ => .pure rfl
  · exact ((inner.withFeature decl.name.name).surveyMethod decl).bind fun _ => .pure rfl

theorem surveyFeatures (place : Nat) (features : List Feature) :
    Survey.Renames one.hierarchy two.hierarchy (List.map (Feature.retype rename)) (one.surveyFeatures place features)
      (two.surveyFeatures place features) := by
  induction features generalizing place with
  | nil => exact .pure rfl
  | cons feature features ih =>
      exact (alike.surveyFeature place feature).bind fun _ => (ih (place + 1)).bind fun _ => .pure rfl

theorem surveyClass (decl : ClassDecl) :
    Survey.Renames one.hierarchy two.hierarchy (ClassDecl.retype rename) (one.surveyClass decl)
      (two.surveyClass decl) :=
  (alike.surveyFeatures 0 decl.features).bind fun _ => .pure rfl

end Site.Matches

/-! ### Classes -/

namespace Site

variable {one two : Hierarchy} {all all' : ClassTypes}

theorem matches_attributes (answers : Hierarchy.Answers rename one two)
    (listed : ∀ owner, some (rename owner) ∈ all' ↔ some owner ∈ all) (type : TypeId) :
    List.Forall₂ (Variable.Matches rename) (attributes one all type) (attributes two all' (rename type)) := by
  unfold attributes
  rw [answers.ancestors]
  induction one.ancestors type with
  | nil => exact .nil
  | cons owner owners ih =>
      rw [List.map_cons, List.flatMap_cons, List.flatMap_cons]
      refine List.rel_append ?_ ih
      by_cases isListed : some owner ∈ all
      · rw [if_pos isListed, if_pos ((listed owner).mpr isListed), List.forall₂_map_left_iff,
          List.forall₂_map_right_iff]
        exact (answers.attributes owner).imp fun attr attr' same => ⟨same.name, same.type⟩
      · rw [if_neg isListed, if_neg (mt (listed owner).mp isListed)]
        exact .nil

theorem matches_ofClass (answers : Hierarchy.Answers rename one two)
    (listed : ∀ owner, some (rename owner) ∈ all' ↔ some owner ∈ all) {tree tree' : Option ScopeTree}
    (sameTree : Option.Rel (ScopeTree.Matches rename) tree tree') (type : TypeId) (place : Nat) :
    Matches rename (ofClass one tree all type place) (ofClass two tree' all' (rename type) place) := by
  have root : Matches rename ⟨⟨one, type, ""⟩, tree, ScopeTree.root, []⟩
      ⟨⟨two, rename type, ""⟩, tree', ScopeTree.root, []⟩ :=
    ⟨⟨answers, rfl, rfl⟩, sameTree, rfl, .nil⟩
  exact root.inside place (matches_attributes answers listed type)

end Site

end CoolLang
