import CoolLang.Analysis.Annotated
import CoolLang.Proofs.Typing.Correspondence
import CoolLang.Proofs.Typing.Explicit
import CoolLang.Proofs.Typing.Soundness

/-!
Surveys of annotated expressions. Where the types are written out that inference has found, a survey needs no tree: it
finds the same static types, and the same is reported (`Analysis.Pairs.survey`). The sites of the two surveys have the
same names in sight, with the same types.
-/

namespace CoolLang

/-! ### What is written out -/

theorem Ident.filledIn_of_ne {written : Ident} (explicit : written.name ≠ "AUTO_TYPE") (name : String) :
    written.filledIn name = written :=
  if_neg explicit

theorem Ident.name_filledIn {written : Ident} (isAuto : written.name = "AUTO_TYPE") (name : String) :
    (written.filledIn name).name = name := by
  rw [filledIn, if_pos isAuto]

theorem Hierarchy.get_of_find? {hierarchy : Hierarchy} {name : String} {type : TypeId}
    (found : hierarchy.find? name = some type) : hierarchy.get name = .ok type := by
  rw [get, found]

namespace Analysis

/-- Whether in an analysis what is left to inference is written `AUTO_TYPE`, and all of it has been given classes, which
are known by their names. -/
structure Filled (analysis : Analysis) : Prop where
  auto : analysis.hierarchy.find? "AUTO_TYPE" = some .autoType
  isNamed : analysis.hierarchy.name .autoType = "AUTO_TYPE"
  find?_name : ∀ type, analysis.hierarchy.IsClass type →
    analysis.hierarchy.find? (analysis.hierarchy.name type) = some type
  inferred : ∀ id, (analysis.tree.variableAt id).auto = true →
    analysis.hierarchy.IsClass (analysis.tree.variableAt id).type

variable {analysis : Analysis} {around : Surroundings}

/-- A declaration as it is shown in the tree: with a class if it is left to inference, and else as it is written. -/
theorem Filled.shown (filled : analysis.Filled) {name : String} {type : TypeId} {id : VariableId}
    (frames : (Variable.declared name type).Frames (analysis.tree.variableAt id)) :
    type = .autoType ∧ analysis.hierarchy.IsClass (analysis.tree.variableAt id).type ∨
      type ≠ .autoType ∧ (analysis.tree.variableAt id).type = type := by
  by_cases isAuto : type = .autoType
  · refine Or.inl ⟨isAuto, filled.inferred id ?_⟩
    rw [frames.auto, isAuto]
    rfl
  · exact Or.inr ⟨isAuto, congrArg Variable.type (frames.eq_of_ne_autoType isAuto)⟩

theorem position_annotate (analysis : Analysis) (scope : ScopeId) (place : Nat) (expr : Expr) :
    (analysis.annotate scope place expr).position = expr.position := by
  cases expr <;> simp only [annotate] <;> rfl

theorem length_annotateAll (analysis : Analysis) (scope : ScopeId) (place : Nat) (exprs : List Expr) :
    (analysis.annotateAll scope place exprs).length = exprs.length := by
  induction exprs generalizing place with
  | nil => simp only [annotateAll]
  | cons expr exprs ih => simp only [annotateAll, List.length_cons, ih]

/-- A parameter has the type of its variable written out. -/
theorem Filled.paramType (filled : analysis.Filled) {one two : Surroundings}
    (names : one.hierarchy.find? = analysis.hierarchy.find?) (finds : two.hierarchy.find? = analysis.hierarchy.find?)
    (param : Param) {slot : VariableId}
    (frames : (Variable.declared param.name.name (one.paramType param)).Frames (analysis.tree.variableAt slot)) :
    two.paramType { param with
      type := param.type.filledIn (analysis.hierarchy.name (analysis.tree.variableAt slot).type) } =
        (analysis.tree.variableAt slot).type := by
  have same : one.paramType param = Surroundings.paramType ⟨analysis.hierarchy, one.current, ""⟩ param := by
    unfold Surroundings.paramType
    rw [names]
  rw [same] at frames
  unfold Surroundings.paramType
  by_cases isAuto : param.type.name = "AUTO_TYPE"
  · have isOpen : Surroundings.paramType ⟨analysis.hierarchy, one.current, ""⟩ param = .autoType := by
      unfold Surroundings.paramType
      rw [isAuto, filled.auto]
      rfl
    rcases filled.shown frames with ⟨_, isClass⟩ | ⟨explicit, _⟩
    · have isNotSelf : (analysis.tree.variableAt slot).type ≠ .selfType := fun same => by
        have concrete := isClass.concrete
        rw [same] at concrete
        exact absurd concrete (by decide)
      simp only [Ident.name_filledIn isAuto, finds, filled.find?_name _ isClass, if_neg isNotSelf]
    · exact absurd isOpen explicit
  · have explicit := @Surroundings.paramType_ne_autoType ⟨analysis.hierarchy, one.current, ""⟩ filled.isNamed _ isAuto
    rw [Ident.filledIn_of_ne isAuto, finds]
    exact (congrArg Variable.type (frames.eq_of_ne_autoType explicit)).symm

/-- The parameters of a method have the types of their variables written out. -/
theorem Filled.params (filled : analysis.Filled) {one two : Surroundings}
    (names : one.hierarchy.find? = analysis.hierarchy.find?) (finds : two.hierarchy.find? = analysis.hierarchy.find?)
    {scope : ScopeId} {place : Nat} {params : List Param} {slots : List VariableId}
    (left : (analysis.tree.locals scope).drop place = slots)
    (shown : List.Forall₂ (fun (param : Param) slot =>
      (Variable.declared param.name.name (one.paramType param)).Frames (analysis.tree.variableAt slot)) params slots) :
    List.Forall₂ (Variable.Matches id) (slots.map analysis.tree.variableAt)
      ((analysis.annotateParams scope place params).map fun param =>
        .declared param.name.name (two.paramType param)) := by
  induction shown generalizing place with
  | nil => exact .nil
  | @cons param slot params slots frames _ ih =>
      obtain ⟨isNext, rest⟩ := next_of_drop left
      have isSlot : analysis.typeNameAt scope place = analysis.hierarchy.name (analysis.tree.variableAt slot).type := by
        rw [typeNameAt, ScopeTree.typeAt, ScopeTree.slots, List.getElem?_map, isNext]
        rfl
      rw [annotateParams, isSlot]
      exact .cons ⟨frames.name.symm, filled.paramType names finds param frames⟩ (ih rest)

/-! ### Notes -/

section

variable (analysis : Analysis) (scope : ScopeId) (place : Nat)

mutual

/-- Static types are left as they are. -/
theorem notes_annotate (scope : ScopeId) (place : Nat) :
    (expr : Expr) → (analysis.annotate scope place expr).notes = expr.notes
  | .integer .. | .string .. | .boolean .. | .identifier .. | .new .. => by simp only [annotate]
  | .assign _ _ value => by simp only [annotate, Expr.notes, notes_annotate _ _ value]
  | .dispatch _ receiver _ _ args => by
      simp only [annotate, Expr.notes, notes_annotateOption _ _ receiver, notes_annotateAll _ _ args]
  | .cond _ test yes no => by
      simp only [annotate, Expr.notes, notes_annotate _ _ test, notes_annotate _ _ yes, notes_annotate _ _ no]
  | .loop _ test body => by simp only [annotate, Expr.notes, notes_annotate _ _ test, notes_annotate _ _ body]
  | .block _ body => by simp only [annotate, Expr.notes, notes_annotateAll _ _ body]
  | .letIn _ bindings body => by
      obtain ⟨inits, inner, place', isBody⟩ :=
        notes_annotateBindings scope place (fun scope place => analysis.annotate scope place body) bindings
      simp only [annotate, Expr.notes, inits, isBody, notes_annotate _ _ body]
  | .caseOf _ scrutinee branches => by
      simp only [annotate, Expr.notes, notes_annotate _ _ scrutinee, notes_annotateBranches _ _ branches]
  | .isVoid _ operand | .not _ operand | .complement _ operand => by
      simp only [annotate, Expr.notes, notes_annotate _ _ operand]
  | .binary _ _ left right => by simp only [annotate, Expr.notes, notes_annotate _ _ left, notes_annotate _ _ right]

theorem notes_annotateOption (scope : ScopeId) (place : Nat) :
    (expr : Option Expr) → Expr.notesOption (analysis.annotateOption scope place expr) = Expr.notesOption expr
  | none => by simp only [annotateOption]
  | some expr => by simp only [annotateOption, Expr.notesOption, notes_annotate _ _ expr]

theorem notes_annotateAll (scope : ScopeId) (place : Nat) :
    (exprs : List Expr) → Expr.notesAll (analysis.annotateAll scope place exprs) = Expr.notesAll exprs
  | [] => by simp only [annotateAll]
  | expr :: exprs => by simp only [annotateAll, Expr.notesAll, notes_annotate _ _ expr, notes_annotateAll _ _ exprs]

theorem notes_annotateBindings (scope : ScopeId) (place : Nat) (body : ScopeId → Nat → Expr) :
    (bindings : List (Binding Expr)) →
    Expr.notesBindings (analysis.annotateBindings scope place bindings body).1 = Expr.notesBindings bindings ∧
      ∃ inner place', (analysis.annotateBindings scope place bindings body).2 = body inner place'
  | [] => by simp only [annotateBindings]; exact ⟨trivial, scope, place, rfl⟩
  | ⟨_, _, init⟩ :: bindings => by
      simp only [annotateBindings, Expr.notesBindings, notes_annotateOption _ _ init]
      obtain ⟨inits, isBody⟩ := notes_annotateBindings
        (analysis.tree.child scope (place + (Expr.nestsOption init).length)) 0 body bindings
      exact ⟨congrArg _ inits, isBody⟩

theorem notes_annotateBranches (scope : ScopeId) (place : Nat) : (branches : List (Branch Expr)) →
    Expr.notesBranches (analysis.annotateBranches scope place branches) = Expr.notesBranches branches
  | [] => by simp only [annotateBranches]
  | ⟨_, _, body⟩ :: branches => by
      simp only [annotateBranches, Expr.notesBranches, notes_annotate _ _ body, notes_annotateBranches _ _ branches]

end

theorem notes_annotateFeatures (current : TypeId) (features : List Feature) :
    (analysis.annotateFeatures current scope place features).flatMap Feature.notes =
      features.flatMap Feature.notes := by
  induction features generalizing place with
  | nil => rfl
  | cons feature features ih =>
      have first : (analysis.annotateFeature current (analysis.tree.child scope place) feature).notes =
          feature.notes := by
        rcases feature with decl | decl
        · exact analysis.notes_annotateOption _ 0 decl.init
        · exact analysis.notes_annotate _ 0 decl.body
      rw [annotateFeatures, List.flatMap_cons, List.flatMap_cons, first, ih]

theorem notes_annotateClasses (decls : List ClassDecl) (types : ClassTypes) :
    Program.notes ⟨analysis.annotateClasses place decls types⟩ types = Program.notes ⟨decls⟩ types := by
  induction decls generalizing place types with
  | nil => rcases types with _ | ⟨_ | _, _⟩ <;> rfl
  | cons decl decls ih =>
      rcases types with _ | ⟨_ | type, types⟩
      · rfl
      · exact ih place types
      · exact congrArg₂ (· ++ ·) (analysis.notes_annotateFeatures _ 0 type decl.features) (ih (place + 1) types)

end

/-! ### Sites -/

/-- A site over the tree of an analysis, and one over no tree where the same is in sight. -/
structure Pairs (analysis : Analysis) (around : Surroundings) (one two : Site) : Prop where
  filled : analysis.Filled
  isTree : one.tree = some analysis.tree
  hierarchy : one.hierarchy = analysis.hierarchy
  names : around.hierarchy.find? = one.hierarchy.find?
  current : around.current = one.current
  concrete : one.current.isConcrete = true
  alike : Site.Matches id one.alone two

/-- What surveys of an expression and of its annotation come to. -/
structure Annotates (annotate : Expr → Expr) (expr : Expr) (typed typed' : Expr × TypeId) : Prop where
  nests : typed.1.nests = expr.nests
  same : typed' = (annotate typed.1, typed.2)

namespace Pairs

variable {one two : Site} (pairs : analysis.Pairs around one two)
include pairs

theorem bare : two.tree = none := by
  have same := pairs.alike.tree
  generalize two.tree = tree at same
  cases same
  rfl

theorem slots (place : Nat) (written : List Variable) :
    one.slots place written = analysis.tree.slots (analysis.tree.child one.scope place) := by
  rw [Site.slots, Site.child, pairs.isTree]
  rfl

/-- Inside scopes that declare the same, the same is in sight. -/
theorem inside (place place' : Nat) (written : List Variable) {written' : List Variable}
    (same : List.Forall₂ (Variable.Matches id) (analysis.tree.slots (analysis.tree.child one.scope place)) written') :
    analysis.Pairs around (one.inside place written) (two.inside place' written') where
  filled := pairs.filled
  isTree := pairs.isTree
  hierarchy := pairs.hierarchy
  names := pairs.names
  current := pairs.current
  concrete := pairs.concrete
  alike := by
    have isAlone : (one.inside place written).alone =
        one.alone.inside place' (analysis.tree.slots (analysis.tree.child one.scope place)) := by
      rw [Site.inside, pairs.slots]
      rfl
    rw [isAlone]
    exact pairs.alike.inside place' same

theorem find? : two.hierarchy.find? = analysis.hierarchy.find? := by
  funext name
  rw [← pairs.hierarchy]
  exact (pairs.alike.answers.find? name).trans (congrFun Option.map_id _)

theorem bindingVariable : around.bindingVariable = one.bindingVariable := by
  funext name written
  unfold Surroundings.bindingVariable Inference.bindingType
  rw [pairs.names, pairs.current]

theorem branchVariable : around.branchVariable = one.branchVariable := by
  funext name written
  unfold Surroundings.branchVariable Inference.castType
  rw [pairs.names]

/-- A class is known by its name where the types are written out. -/
theorem get_name {type : TypeId} (isClass : analysis.hierarchy.IsClass type) :
    two.hierarchy.get (analysis.hierarchy.name type) = .ok type := by
  refine Hierarchy.get_of_find? ?_
  rw [pairs.find?]
  exact pairs.filled.find?_name type isClass

/-- A binding has the type of its variable written out. -/
theorem bindingType {name : Ident} {written : Option Ident} {id : VariableId}
    (frames : (around.bindingVariable name written).Frames (analysis.tree.variableAt id)) :
    Survey.Agrees one.hierarchy two.hierarchy (fun _ type => type = (analysis.tree.variableAt id).type)
      (one.bindingType written) (two.bindingType (some ((written.getD ⟨"AUTO_TYPE", name.position⟩).filledIn
        (analysis.hierarchy.name (analysis.tree.variableAt id).type)))) := by
  rw [pairs.bindingVariable] at frames
  have notAuto : one.current ≠ .autoType := TypeId.ne_autoType_of_isConcrete pairs.concrete
  have isNamed : one.hierarchy.name .autoType = "AUTO_TYPE" := pairs.hierarchy ▸ pairs.filled.isNamed
  by_cases isAuto : (written.getD ⟨"AUTO_TYPE", name.position⟩).name = "AUTO_TYPE"
  · -- what is left to inference has got a class
    have isOpen : one.bindingType written = pure .autoType := by
      cases written with
      | none => rfl
      | some written =>
          have found : one.hierarchy.get written.name = .ok .autoType := by
            rw [pairs.hierarchy, show written.name = "AUTO_TYPE" from isAuto, Hierarchy.get_of_find? pairs.filled.auto]
          unfold Site.bindingType
          simp only [found]
          rfl
    have value := @Typing.bindingType_value one written
    rw [isOpen] at value
    rcases pairs.filled.shown frames with ⟨_, isClass⟩ | ⟨explicit, _⟩
    · rw [isOpen]
      unfold Site.bindingType
      simp only [Ident.name_filledIn isAuto, pairs.get_name isClass]
      exact .pure (isClass.resolveIn_self _)
    · exact absurd value.symm explicit
  · obtain ⟨written, rfl⟩ : ∃ known, written = some known := by
      cases written with
      | none => exact absurd rfl isAuto
      | some known => exact ⟨known, rfl⟩
    rw [Option.getD_some] at isAuto
    have explicit := Surroundings.binds_of_named isNamed notAuto name (some written) ⟨written, rfl, isAuto⟩
    rw [Option.getD_some, Ident.filledIn_of_ne isAuto]
    have same := pairs.alike.bindingType (some written)
    refine ⟨same.value.trans ?_, same.diagnostics⟩
    rcases pairs.filled.shown frames with ⟨isOpen, _⟩ | ⟨_, isType⟩
    · exact absurd isOpen explicit
    · rw [isType]
      exact @Typing.bindingType_value one (some written)

end Pairs

/-- A scope that declares one variable shows one. -/
theorem exists_slot {tree : ScopeTree} {scope : ScopeId} {info : Variable}
    (shown : List.Forall₂ Variable.Frames [info] (tree.slots scope)) :
    ∃ id, tree.slots scope = [tree.variableAt id] ∧ info.Frames (tree.variableAt id) := by
  rw [ScopeTree.slots] at shown ⊢
  obtain ⟨slot, slots, frames, others, isAll⟩ := List.forall₂_cons_left_iff.mp shown
  obtain rfl := List.forall₂_nil_left_iff.mp others
  obtain ⟨id, _, rfl⟩ := List.map_eq_singleton_iff.mp isAll
  exact ⟨id, isAll, frames⟩

/-- The name that is written for a variable that is alone in its scope. -/
theorem typeNameAt_of_slots {scope : ScopeId} {info : Variable} (slots : analysis.tree.slots scope = [info]) :
    analysis.typeNameAt scope 0 = analysis.hierarchy.name info.type := by
  rw [typeNameAt, ScopeTree.typeAt, slots]
  rfl

namespace Pairs

/-- The variable of a branch has the type that is written. -/
theorem branchType {one two : Site} (pairs : analysis.Pairs around one two) (seen : List TypeId) {name written : Ident}
    {scope : ScopeId}
    (shown : List.Forall₂ Variable.Frames [around.branchVariable name written] (analysis.tree.slots scope)) :
    Survey.Agrees one.hierarchy two.hierarchy
      (fun declared declared' => declared' = declared ∧ List.Forall₂ (Variable.Matches id) (analysis.tree.slots scope)
        [.declared name.name declared.1])
      (one.branchType seen written) (two.branchType seen written) := by
  obtain ⟨slot, slots, frames⟩ := exists_slot shown
  rw [pairs.branchVariable] at frames
  have same := pairs.alike.branchType seen written
  rw [List.map_id] at same
  have value := @Typing.branchType_value one seen written
  refine ⟨⟨same.value.trans (by rw [List.map_id_fun]; rfl), ?_⟩, same.diagnostics⟩
  rw [slots, frames.eq_of_ne_autoType (Surroundings.branchVariable_ne_autoType _ _ _), value]
  exact .cons ⟨rfl, rfl⟩ .nil

open Survey

mutual

theorem survey {one two : Site} (pairs : analysis.Pairs around one two) (place place' : Nat) : (expr : Expr) →
    analysis.tree.Shows (around.declarations analysis.tree one.scope place expr) →
    Agrees one.hierarchy two.hierarchy (Annotates (analysis.annotate one.scope place) expr)
      (one.survey place expr) (two.survey place' (analysis.annotate one.scope place expr))
  | .integer .., _ | .string .., _ | .boolean .., _ => by
      simp only [annotate, Site.survey]
      exact .pure ⟨rfl, by simp only [annotate]⟩
  | .identifier note name, _ => by
      simp only [annotate, Site.survey]
      refine Agrees.bind (pairs.alike.typeOfName name note.position) fun type _ same => ?_
      exact .pure ⟨rfl, by simp only [annotate, same, id]⟩
  | .new note written, _ => by
      simp only [annotate, Site.survey]
      refine Agrees.bind (pairs.alike.newType written) fun type _ same => ?_
      exact .pure ⟨rfl, by simp only [annotate, same, id]⟩
  | .assign note target value, shows => by
      rw [Surroundings.declarations] at shows
      simp only [annotate, Site.survey]
      refine (survey pairs place place' value shows).bind fun ⟨value, type⟩ _ ⟨nests, same⟩ => ?_
      subst same
      simp only [position_annotate]
      refine Agrees.bind (pairs.alike.surveyTarget target type value.position) fun _ _ _ => ?_
      exact .pure ⟨by simp only [Expr.nests, nests], by simp only [annotate]⟩
  | .dispatch note receiver cast method args, shows => by
      rw [Surroundings.declarations] at shows
      simp only [annotate, Site.survey, length_annotateAll]
      refine (surveyReceiver pairs place place' receiver shows.append.1).bind
        fun ⟨receiver', receiverType⟩ _ ⟨nests, same⟩ => ?_
      subst same
      refine Agrees.bind (pairs.alike.dispatchType receiverType cast) fun owner owner' same => ?_
      obtain rfl : owner' = owner := same
      refine Agrees.bind (pairs.alike.callee owner' method args.length) fun callee callee' same => ?_
      refine (surveyArgs pairs _ _ args _ _ (Site.Matches.calleeParams same) shows.append.2).bind
        fun args' _ ⟨nests', same'⟩ => ?_
      subst same'
      have result := Site.Matches.calleeResult pairs.alike.answers.toRenumbers receiverType same
      simp only [id] at result
      refine .pure ⟨by simp only [Expr.nests, nests, nests'], ?_⟩
      simp only [annotate, result, nests]
  | .cond note test yes no, shows => by
      rw [Surroundings.declarations] at shows
      simp only [annotate, Site.survey]
      refine (survey pairs place place' test shows.append.1).bind fun ⟨test', testType⟩ _ ⟨nests, same⟩ => ?_
      subst same
      simp only [position_annotate]
      refine Agrees.bind (pairs.alike.flow_builtin (by decide) testType _) fun _ _ _ => ?_
      refine (survey pairs _ _ yes shows.append.2.append.1).bind fun ⟨yes', yesType⟩ _ ⟨nests', same⟩ => ?_
      subst same
      refine (survey pairs _ _ no shows.append.2.append.2).bind fun ⟨no', noType⟩ _ ⟨nests'', same⟩ => ?_
      subst same
      have union : two.hierarchy.union yesType noType = one.hierarchy.union yesType noType :=
        pairs.alike.answers.union yesType noType
      refine .pure ⟨by simp only [Expr.nests, nests, nests', nests''], ?_⟩
      simp only [annotate, union, nests, nests']
  | .loop note test body, shows => by
      rw [Surroundings.declarations] at shows
      simp only [annotate, Site.survey]
      refine (survey pairs place place' test shows.append.1).bind fun ⟨test', testType⟩ _ ⟨nests, same⟩ => ?_
      subst same
      simp only [position_annotate]
      refine Agrees.bind (pairs.alike.flow_builtin (by decide) testType _) fun _ _ _ => ?_
      refine (survey pairs _ _ body shows.append.2).bind fun ⟨body', bodyType⟩ _ ⟨nests', same⟩ => ?_
      subst same
      exact .pure ⟨by simp only [Expr.nests, nests, nests'], by simp only [annotate, nests]⟩
  | .block note body, shows => by
      rw [Surroundings.declarations] at shows
      obtain ⟨nothing, shows⟩ := shows.cons
      simp only [annotate, Site.survey]
      have empty : analysis.tree.slots (analysis.tree.child one.scope place) = [] :=
        List.forall₂_nil_left_iff.mp nothing
      have inner : analysis.Pairs around (one.inside place []) (two.inside place' []) :=
        pairs.inside place place' [] (by rw [empty]; exact .nil)
      rw [← Site.scope_inside pairs.isTree []] at shows ⊢
      refine (surveyAll inner 0 0 .object body shows).bind fun ⟨body', type⟩ _ ⟨nests, same⟩ => ?_
      subst same
      refine .pure ⟨by simp only [Expr.nests, nests], ?_⟩
      rw [Site.scope_inside pairs.isTree]
      simp only [annotate]
  | .letIn note bindings body, shows => by
      rw [Surroundings.declarations] at shows
      simp only [annotate, Site.survey]
      refine (surveyBindings pairs place place' (fun _ _ pairs place place' shows =>
        survey pairs place place' body shows) bindings shows).bind
          fun ⟨bindings', body', type⟩ _ ⟨nests, same⟩ => ?_
      subst same
      exact .pure ⟨by simp only [Expr.nests, nests], by simp only [annotate]⟩
  | .caseOf note scrutinee branches, shows => by
      rw [Surroundings.declarations] at shows
      simp only [annotate, Site.survey]
      refine (survey pairs place place' scrutinee shows.append.1).bind fun ⟨scrutinee', _⟩ _ ⟨nests, same⟩ => ?_
      subst same
      refine (surveyBranches pairs _ _ [] none branches shows.append.2).bind
        fun ⟨branches', type⟩ _ ⟨nests', same⟩ => ?_
      subst same
      exact .pure ⟨by simp only [Expr.nests, nests, nests'], by simp only [annotate, nests]⟩
  | .isVoid note operand, shows => by
      rw [Surroundings.declarations] at shows
      simp only [annotate, Site.survey]
      refine (survey pairs place place' operand shows).bind fun ⟨operand', type⟩ _ ⟨nests, same⟩ => ?_
      subst same
      exact .pure ⟨by simp only [Expr.nests, nests], by simp only [annotate]⟩
  | .not note operand, shows | .complement note operand, shows => by
      rw [Surroundings.declarations] at shows
      simp only [annotate, Site.survey]
      refine (survey pairs place place' operand shows).bind fun ⟨operand', type⟩ _ ⟨nests, same⟩ => ?_
      subst same
      simp only [position_annotate]
      refine Agrees.bind (pairs.alike.flow_builtin (by decide) type _) fun _ _ _ => ?_
      exact .pure ⟨by simp only [Expr.nests, nests], by simp only [annotate]⟩
  | .binary note operator left right, shows => by
      rw [Surroundings.declarations] at shows
      simp only [annotate, Site.survey]
      refine (survey pairs place place' left shows.append.1).bind fun ⟨left', leftType⟩ _ ⟨nests, same⟩ => ?_
      subst same
      refine (survey pairs _ _ right shows.append.2).bind fun ⟨right', rightType⟩ _ ⟨nests', same⟩ => ?_
      subst same
      have admits : two.admits operator leftType rightType = one.admits operator leftType rightType :=
        pairs.alike.admits operator leftType rightType
      have named (type : TypeId) : two.hierarchy.name type = one.hierarchy.name type := pairs.alike.answers.name type
      have whole : Agrees one.hierarchy two.hierarchy
          (Annotates (analysis.annotate one.scope place) (.binary note operator left right))
          (pure (.binary (note.typed operator.resultType) operator left' right', operator.resultType))
          (pure (.binary (note.typed operator.resultType) operator (analysis.annotate one.scope place left')
            (analysis.annotate one.scope (place + left.nests.length) right'), operator.resultType)) :=
        .pure ⟨by simp only [Expr.nests, nests, nests'], by simp only [annotate, nests]⟩
      simp only [admits, named]
      split
      · exact Agrees.bind (Renames.fault ..) fun _ _ _ => whole
      · exact whole

theorem surveyReceiver {one two : Site} (pairs : analysis.Pairs around one two) (place place' : Nat) :
    (receiver : Option Expr) →
    analysis.tree.Shows (around.declarationsOption analysis.tree one.scope place receiver) →
    Agrees one.hierarchy two.hierarchy
      (fun typed typed' => Expr.nestsOption typed.1 = Expr.nestsOption receiver ∧
        typed' = (analysis.annotateOption one.scope place typed.1, typed.2))
      (one.surveyReceiver place receiver)
      (two.surveyReceiver place' (analysis.annotateOption one.scope place receiver))
  | none, _ => by
      simp only [annotateOption, Site.surveyReceiver]
      exact .pure ⟨rfl, congrArg (none, ·) pairs.alike.current⟩
  | some receiver, shows => by
      rw [Surroundings.declarationsOption] at shows
      simp only [annotateOption, Site.surveyReceiver]
      refine (survey pairs place place' receiver shows).bind fun ⟨receiver', type⟩ _ ⟨nests, same⟩ => ?_
      subst same
      exact .pure ⟨by simp only [Expr.nestsOption, nests], by simp only [annotateOption]⟩

theorem surveyArgs {one two : Site} (pairs : analysis.Pairs around one two) (place place' : Nat) : (args : List Expr) →
    (params params' : List Variable) → List.Forall₂ (Variable.Matches id) params params' →
    analysis.tree.Shows (around.declarationsAll analysis.tree one.scope place args) →
    Agrees one.hierarchy two.hierarchy
      (fun typed typed' => Expr.nestsAll typed = Expr.nestsAll args ∧
        typed' = analysis.annotateAll one.scope place typed)
      (one.surveyArgs place args params)
      (two.surveyArgs place' (analysis.annotateAll one.scope place args) params')
  | [], _, _, _, _ => by
      simp only [annotateAll, Site.surveyArgs]
      exact .pure ⟨rfl, by simp only [annotateAll]⟩
  | arg :: args, params, params', alike, shows => by
      rw [Surroundings.declarationsAll] at shows
      simp only [annotateAll, Site.surveyArgs]
      refine (survey pairs place place' arg shows.append.1).bind fun ⟨arg', type⟩ _ ⟨nests, same⟩ => ?_
      subst same
      have later {params params' : List Variable} (alike : List.Forall₂ (Variable.Matches id) params params') :
          Agrees one.hierarchy two.hierarchy
            (fun typed typed' => Expr.nestsAll typed = Expr.nestsAll (arg :: args) ∧
              typed' = analysis.annotateAll one.scope place typed)
            (do
              let args ← one.surveyArgs (place + arg.nests.length) args params
              return arg' :: args)
            (do
              let args ← two.surveyArgs (place' + (analysis.annotate one.scope place arg).nests.length)
                (analysis.annotateAll one.scope (place + arg.nests.length) args) params'
              return analysis.annotate one.scope place arg' :: args) := by
        refine (surveyArgs pairs _ _ args params params' alike shows.append.2).bind fun args' _ ⟨nests', same⟩ => ?_
        subst same
        exact .pure ⟨by simp only [Expr.nestsAll, nests, nests'], by simp only [annotateAll, nests]⟩
      cases alike with
      | nil => exact later .nil
      | cons first rest =>
          simp only [List.head?_cons, position_annotate, first.type]
          exact Agrees.bind (Renames.flow pairs.alike.answers ..) fun _ _ _ => later rest

theorem surveyAll {one two : Site} (pairs : analysis.Pairs around one two) (place place' : Nat) (last : TypeId) :
    (exprs : List Expr) → analysis.tree.Shows (around.declarationsAll analysis.tree one.scope place exprs) →
    Agrees one.hierarchy two.hierarchy
      (fun typed typed' => Expr.nestsAll typed.1 = Expr.nestsAll exprs ∧
        typed' = (analysis.annotateAll one.scope place typed.1, typed.2))
      (one.surveyAll place last exprs) (two.surveyAll place' last (analysis.annotateAll one.scope place exprs))
  | [], _ => by
      simp only [annotateAll, Site.surveyAll]
      exact .pure ⟨rfl, by simp only [annotateAll]⟩
  | expr :: exprs, shows => by
      rw [Surroundings.declarationsAll] at shows
      simp only [annotateAll, Site.surveyAll]
      refine (survey pairs place place' expr shows.append.1).bind fun ⟨expr', type⟩ _ ⟨nests, same⟩ => ?_
      subst same
      refine (surveyAll pairs _ _ type exprs shows.append.2).bind fun ⟨exprs', last⟩ _ ⟨nests', same⟩ => ?_
      subst same
      exact .pure ⟨by simp only [Expr.nestsAll, nests, nests'], by simp only [annotateAll, nests]⟩

/-- The body stands at any sites inside the bindings. -/
theorem surveyBindings {one two : Site} (pairs : analysis.Pairs around one two) (place place' : Nat) {body : Expr}
    {ofBody : ScopeId → Nat → Declarations}
    (surveys : ∀ inner inner' : Site, analysis.Pairs around inner inner' → ∀ place place',
       analysis.tree.Shows (ofBody inner.scope place) →
      Agrees inner.hierarchy inner'.hierarchy (Annotates (analysis.annotate inner.scope place) body)
        (inner.survey place body) (inner'.survey place' (analysis.annotate inner.scope place body))) :
    (bindings : List (Binding Expr)) →
    analysis.tree.Shows (around.declarationsBindings analysis.tree one.scope place bindings ofBody) →
    Agrees one.hierarchy two.hierarchy
      (fun typed typed' => Expr.nestsBindings typed.2.1.nests typed.1 = Expr.nestsBindings body.nests bindings ∧
        typed' = ((analysis.annotateBindings one.scope place typed.1 fun scope place =>
            analysis.annotate scope place typed.2.1).1,
          (analysis.annotateBindings one.scope place typed.1 fun scope place =>
            analysis.annotate scope place typed.2.1).2, typed.2.2))
      (one.surveyBindings place bindings fun inner place => inner.survey place body)
      (two.surveyBindings place' (analysis.annotateBindings one.scope place bindings fun scope place =>
          analysis.annotate scope place body).1 fun inner place' => inner.survey place'
        (analysis.annotateBindings one.scope place bindings fun scope place => analysis.annotate scope place body).2)
  | [], shows => by
      rw [Surroundings.declarationsBindings] at shows
      simp only [annotateBindings, Site.surveyBindings]
      refine (surveys one two pairs place place' shows).bind fun ⟨body', type⟩ _ ⟨nests, same⟩ => ?_
      subst same
      exact .pure ⟨by simp only [Expr.nestsBindings, nests], by simp only [annotateBindings]⟩
  | ⟨name, written, init⟩ :: bindings, shows => by
      rw [Surroundings.declarationsBindings] at shows
      obtain ⟨ofInit, shows⟩ := shows.append
      obtain ⟨shown, shows⟩ := shows.cons
      obtain ⟨slot, slots, frames⟩ := exists_slot shown
      simp only [annotateBindings, Site.surveyBindings, typeNameAt_of_slots slots]
      refine (pairs.bindingType frames).bind fun declared _ same => ?_
      subst same
      refine (surveyInit pairs place place' init ofInit).bind fun init' _ ⟨nests, same⟩ => ?_
      subst same
      have isSlot : Variable.Matches id (analysis.tree.variableAt slot)
          (.declared name.name (analysis.tree.variableAt slot).type) := ⟨frames.name.symm, rfl⟩
      have inner : analysis.Pairs around
          (one.inside (place + (Expr.nestsOption init).length) [.declared name.name declared])
          (two.inside (place' + (Expr.nestsOption (analysis.annotateOption one.scope place init)).length)
            [.declared name.name (analysis.tree.variableAt slot).type]) :=
        pairs.inside _ _ _ (by rw [slots]; exact .cons isSlot .nil)
      have scope : (one.inside (place + (Expr.nestsOption init).length) [.declared name.name declared]).scope =
          analysis.tree.child one.scope (place + (Expr.nestsOption init).length) := Site.scope_inside pairs.isTree _
      rw [← scope] at shows
      have later := surveyBindings inner 0 0 surveys bindings shows
      rw [scope] at later
      have ofOne : one.slots (place + (Expr.nestsOption init).length) [.declared name.name declared] =
          [analysis.tree.variableAt slot] := (pairs.slots _ _).trans slots
      have ofTwo (second : Nat) : two.slots second [.declared name.name (analysis.tree.variableAt slot).type] =
          [.declared name.name (analysis.tree.variableAt slot).type] := by
        rw [Site.slots, pairs.bare]
        rfl
      rcases init' with _ | ⟨init', type⟩
      on_goal 2 =>
        rw [Option.map_some] at nests
        simp only [ofOne, ofTwo, List.headD_cons, Option.map_some, Prod.map_apply, position_annotate]
        refine Agrees.bind (Renames.flow pairs.alike.answers ..) fun _ _ _ => ?_
      all_goals
        refine later.bind fun ⟨bindings', body', _⟩ _ ⟨nests', same⟩ => ?_
        subst same
        refine .pure ⟨by simp only [Expr.nestsBindings, nests, nests'], ?_⟩
        simp only [annotateBindings, nests, typeNameAt_of_slots slots]
        simp only [Option.map_none, annotateOption]

theorem surveyInit {one two : Site} (pairs : analysis.Pairs around one two) (place place' : Nat) :
    (init : Option Expr) →
    analysis.tree.Shows (around.declarationsOption analysis.tree one.scope place init) →
    Agrees one.hierarchy two.hierarchy
      (fun typed typed' => Expr.nestsOption (typed.map Prod.fst) = Expr.nestsOption init ∧
        typed' = typed.map (Prod.map (analysis.annotate one.scope place) id))
      (one.surveyInit place init) (two.surveyInit place' (analysis.annotateOption one.scope place init))
  | none, _ => by
      simp only [annotateOption, Site.surveyInit]
      exact .pure ⟨rfl, rfl⟩
  | some init, shows => by
      rw [Surroundings.declarationsOption] at shows
      simp only [annotateOption, Site.surveyInit]
      refine (survey pairs place place' init shows).bind fun ⟨init', type⟩ _ ⟨nests, same⟩ => ?_
      subst same
      exact .pure ⟨by simp only [Option.map_some, Expr.nestsOption, nests], rfl⟩

theorem surveyBranches {one two : Site} (pairs : analysis.Pairs around one two) (place place' : Nat)
    (seen : List TypeId) (type : Option TypeId) : (branches : List (Branch Expr)) →
    analysis.tree.Shows (around.declarationsBranches analysis.tree one.scope place branches) →
    Agrees one.hierarchy two.hierarchy
      (fun typed typed' => Expr.nestsBranches typed.1 = Expr.nestsBranches branches ∧
        typed' = (analysis.annotateBranches one.scope place typed.1, typed.2))
      (one.surveyBranches place seen type branches)
      (two.surveyBranches place' seen type (analysis.annotateBranches one.scope place branches))
  | [], _ => by
      simp only [annotateBranches, Site.surveyBranches]
      exact .pure ⟨rfl, by simp only [annotateBranches]⟩
  | ⟨name, written, body⟩ :: branches, shows => by
      rw [Surroundings.declarationsBranches] at shows
      obtain ⟨shown, shows⟩ := shows.cons
      obtain ⟨ofBody, ofLater⟩ := shows.append
      simp only [annotateBranches, Site.surveyBranches]
      refine (pairs.branchType seen shown).bind fun ⟨declared, seen'⟩ _ ⟨same, slots⟩ => ?_
      subst same
      have inner := pairs.inside place place' [.declared name.name declared] slots
      have scope : (one.inside place [.declared name.name declared]).scope = analysis.tree.child one.scope place :=
        Site.scope_inside pairs.isTree _
      rw [← scope] at ofBody
      have inside := survey inner 0 0 body ofBody
      rw [scope] at inside
      refine inside.bind fun ⟨body', bodyType⟩ _ ⟨nests, same⟩ => ?_
      subst same
      have union : (type.elim bodyType fun type => two.hierarchy.union type bodyType) =
          type.elim bodyType fun type => one.hierarchy.union type bodyType := by
        cases type with
        | none => rfl
        | some type => exact pairs.alike.answers.union type bodyType
      simp only [union]
      refine (surveyBranches pairs _ _ seen' _ branches ofLater).bind fun ⟨branches', type⟩ _ ⟨nests', same⟩ => ?_
      subst same
      exact .pure ⟨by simp only [Expr.nestsBranches, nests, nests'], by simp only [annotateBranches]⟩

end

/-! ### Features -/

theorem attributeType {one two : Site} (pairs : analysis.Pairs around one two) (decl : AttributeDecl)
    (scope : ScopeId) :
    two.attributeType (analysis.annotateAttribute one.current scope decl) = one.attributeType decl := by
  have same := pairs.alike.attributeType (analysis.annotateAttribute one.current scope decl)
  refine same.trans ?_
  change one.attributeType (analysis.annotateAttribute one.current scope decl) = one.attributeType decl
  unfold Surroundings.attributeType annotateAttribute
  rw [pairs.hierarchy]
  cases (analysis.hierarchy.info one.current).attributeAt? decl.name.name decl.name.position <;> rfl

theorem resultType {one two : Site} (pairs : analysis.Pairs around one two) (decl : MethodDecl) (scope : ScopeId) :
    two.resultType (analysis.annotateMethod one.current scope decl) = one.resultType decl := by
  have same := pairs.alike.resultType (analysis.annotateMethod one.current scope decl)
  refine same.trans ?_
  change one.resultType (analysis.annotateMethod one.current scope decl) = one.resultType decl
  unfold Surroundings.resultType annotateMethod
  rw [pairs.hierarchy]
  cases (analysis.hierarchy.info one.current).methodAt? decl.name.name decl.name.position <;> rfl

theorem surveyAttribute {one two : Site} (pairs : analysis.Pairs around one two) (decl : AttributeDecl)
    {scope : ScopeId} (isScope : one.scope = scope)
    (shows : analysis.tree.Shows (around.declarationsOption analysis.tree scope 0 decl.init)) :
    Agrees one.hierarchy two.hierarchy
      (fun typed typed' => typed' = analysis.annotateAttribute one.current scope typed)
      (one.surveyAttribute decl) (two.surveyAttribute (analysis.annotateAttribute one.current scope decl)) := by
  subst isScope
  have declared := pairs.attributeType decl one.scope
  obtain ⟨name, written, init⟩ := decl
  unfold Site.surveyAttribute
  rw [declared]
  cases init with
  | none =>
      simp only [annotateAttribute, annotateOption]
      exact .pure rfl
  | some init =>
      rw [Surroundings.declarationsOption] at shows
      simp only [annotateAttribute, annotateOption]
      refine (survey pairs 0 0 init shows).bind fun ⟨init', type⟩ _ ⟨_, same⟩ => ?_
      subst same
      simp only [position_annotate]
      refine Agrees.bind (Renames.flow pairs.alike.answers ..) fun _ _ _ => ?_
      exact .pure (by simp only [annotateOption])

theorem surveyMethod {one two : Site} (pairs : analysis.Pairs around one two) (decl : MethodDecl) {scope : ScopeId}
    (isScope : one.scope = scope)
    (shows : analysis.tree.Shows (around.declarations analysis.tree scope 0 decl.body)) :
    Agrees one.hierarchy two.hierarchy
      (fun typed typed' => typed' = analysis.annotateMethod one.current scope typed)
      (one.surveyMethod decl) (two.surveyMethod (analysis.annotateMethod one.current scope decl)) := by
  subst isScope
  unfold Site.surveyMethod
  rw [pairs.resultType]
  refine (survey pairs 0 0 decl.body shows).bind fun ⟨body', type⟩ _ ⟨_, same⟩ => ?_
  subst same
  simp only [annotateMethod, position_annotate]
  refine Agrees.bind (Renames.flow pairs.alike.answers ..) fun _ _ _ => ?_
  exact .pure rfl

/-- What a feature declares is shown in its scope. -/
theorem featureVariables {one two : Site} (pairs : analysis.Pairs around one two) {scope : ScopeId} {feature : Feature}
    (shown : List.Forall₂ Variable.Frames (around.featureVariables feature) (analysis.tree.slots scope)) :
    List.Forall₂ (Variable.Matches id) (analysis.tree.slots scope)
      (two.featureVariables (analysis.annotateFeature one.current scope feature)) := by
  have notAuto : around.current ≠ .autoType := pairs.current ▸ TypeId.ne_autoType_of_isConcrete pairs.concrete
  obtain ⟨self, slots, locals⟩ : ∃ self slots, analysis.tree.locals scope = self :: slots := by
    have count := shown.length_eq
    rw [ScopeTree.slots, List.length_map] at count
    refine List.exists_cons_of_length_pos (count ▸ ?_)
    rcases feature with decl | decl <;> exact Nat.succ_pos _
  rw [ScopeTree.slots, locals, List.map_cons] at shown ⊢
  have isSelf (frames : (Variable.declared "self" around.current).Frames (analysis.tree.variableAt self)) :
      Variable.Matches id (analysis.tree.variableAt self) (.declared "self" two.current) :=
    ⟨frames.name.symm, pairs.alike.current.trans (pairs.current.symm.trans
      (congrArg Variable.type (frames.eq_of_ne_autoType notAuto)).symm)⟩
  rcases feature with decl | decl
  · obtain ⟨frames, later⟩ := List.forall₂_cons.mp shown
    rw [List.forall₂_nil_left_iff.mp later]
    exact .cons (isSelf frames) .nil
  · obtain ⟨frames, later⟩ := List.forall₂_cons.mp shown
    rw [List.forall₂_map_left_iff, List.forall₂_map_right_iff] at later
    exact .cons (isSelf frames) (pairs.filled.params (pairs.hierarchy ▸ pairs.names) pairs.find?
      (by rw [locals, List.drop_one, List.tail_cons]) later)

theorem withFeature {one two : Site} (pairs : analysis.Pairs around one two) (name : String) :
    analysis.Pairs { around with feature := name } { one with feature := name } { two with feature := name } :=
  ⟨pairs.filled, pairs.isTree, pairs.hierarchy, pairs.names, pairs.current, pairs.concrete,
    pairs.alike.withFeature name⟩

theorem surveyFeature {one two : Site} (pairs : analysis.Pairs around one two) (place place' : Nat) (feature : Feature)
    (shows : analysis.tree.Shows (around.declarationsFeature analysis.tree one.scope place feature)) :
    Agrees one.hierarchy two.hierarchy
      (fun typed typed' =>
        typed' = analysis.annotateFeature one.current (analysis.tree.child one.scope place) typed)
      (one.surveyFeature place feature)
      (two.surveyFeature place'
        (analysis.annotateFeature one.current (analysis.tree.child one.scope place) feature)) := by
  obtain ⟨shown, shows⟩ := shows.cons
  have inner := pairs.inside place place' (one.featureVariables feature) (pairs.featureVariables shown)
  have scope : (one.inside place (one.featureVariables feature)).scope = analysis.tree.child one.scope place :=
    Site.scope_inside pairs.isTree _
  rcases feature with decl | decl
  · refine ((inner.withFeature decl.name.name).surveyAttribute decl scope shows).bind fun decl' _ same => ?_
    subst same
    exact .pure rfl
  · refine ((inner.withFeature decl.name.name).surveyMethod decl scope shows).bind fun decl' _ same => ?_
    subst same
    exact .pure rfl

theorem surveyFeatures {one two : Site} (pairs : analysis.Pairs around one two) (place place' : Nat)
    (features : List Feature)
    (shows : analysis.tree.Shows (around.declarationsFeatures analysis.tree one.scope place features)) :
    Agrees one.hierarchy two.hierarchy
      (fun typed typed' => typed' = analysis.annotateFeatures one.current one.scope place typed)
      (one.surveyFeatures place features)
      (two.surveyFeatures place' (analysis.annotateFeatures one.current one.scope place features)) := by
  induction features generalizing place place' with
  | nil => exact .pure rfl
  | cons feature features ih =>
      rw [Surroundings.declarationsFeatures] at shows
      refine (pairs.surveyFeature place place' feature shows.append.1).bind fun feature' _ same => ?_
      subst same
      refine (ih (place + 1) (place' + 1) shows.append.2).bind fun features' _ same => ?_
      subst same
      exact .pure rfl

theorem surveyClass {one two : Site} (pairs : analysis.Pairs around one two) (decl : ClassDecl) {scope : ScopeId}
    (isScope : one.scope = scope)
    (shows : analysis.tree.Shows (around.declarationsFeatures analysis.tree scope 0 decl.features)) :
    Agrees one.hierarchy two.hierarchy
      (fun typed typed' =>
        typed' = { typed with features := analysis.annotateFeatures one.current scope 0 typed.features })
      (one.surveyClass decl)
      (two.surveyClass { decl with features := analysis.annotateFeatures one.current scope 0 decl.features }) := by
  subst isScope
  refine (pairs.surveyFeatures 0 0 decl.features shows).bind fun features' _ same => ?_
  subst same
  exact .pure rfl

end Pairs

/-- Classes are surveyed as they are annotated, where the sites of each class are those of a pair. -/
theorem surveyClasses_agrees {declared hierarchy : Hierarchy} {all : ClassTypes} (place : Nat) (decls : List ClassDecl)
    (types : ClassTypes) {scopes : List ScopeId}
    (pairs : ∀ index type, (types.filterMap id)[index]? = some type → analysis.Pairs ⟨declared, type, ""⟩
      (Site.ofClass analysis.hierarchy (some analysis.tree) all type (place + index))
      (Site.ofClass hierarchy none all type (place + index)))
    (left : (analysis.tree.children ScopeTree.root).drop place = scopes)
    (enough : (types.filterMap id).length ≤ scopes.length)
    (shows : analysis.tree.Shows (declarationsClasses declared all analysis.tree decls types scopes)) :
    Survey.Agrees analysis.hierarchy hierarchy (fun typed typed' => typed' = analysis.annotateClasses place typed types)
      (Site.surveyClasses analysis.hierarchy (some analysis.tree) all place decls types)
      (Site.surveyClasses hierarchy none all place (analysis.annotateClasses place decls types) types) := by
  induction decls generalizing types place scopes with
  | nil => rcases types with _ | ⟨_ | _, _⟩ <;> exact .pure rfl
  | cons decl decls ih =>
      rcases types with _ | ⟨_ | type, types⟩
      · exact .pure rfl
      · refine (ih place types pairs left enough shows).bind fun decls' _ same => ?_
        subst same
        exact .pure rfl
      · obtain _ | ⟨scope, scopes⟩ := scopes
        · exact absurd enough (Nat.not_succ_le_zero _)
        rw [declarationsClasses] at shows
        obtain ⟨_, shows⟩ := shows.cons
        obtain ⟨isNext, rest⟩ := next_of_drop left
        have isChild := ScopeTree.child_of_getElem? isNext
        have isScope : (Site.ofClass analysis.hierarchy (some analysis.tree) all type place).scope = scope :=
          (Site.scope_inside rfl _).trans isChild
        rw [annotateClasses, isChild]
        refine ((pairs 0 type rfl).surveyClass decl isScope shows.append.1).bind fun decl' _ same => ?_
        subst same
        refine (ih (place + 1) types (fun index type isType => ?_) rest (Nat.le_of_succ_le_succ enough)
          shows.append.2).bind fun decls' _ same => ?_
        · rw [Nat.add_right_comm, Nat.add_assoc]
          exact pairs (index + 1) type isType
        · subst same
          refine .pure ?_
          rw [annotateClasses, isChild]
          rfl

end Analysis

end CoolLang
