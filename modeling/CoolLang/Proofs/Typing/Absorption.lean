import CoolLang.Program.Parts
import CoolLang.Proofs.Inference.Advance
import CoolLang.Proofs.Typing.Verdict

/-!
What typing finds wrong is wrong with classes. An expression at fault has the error type, which conforms to all types
as all types conform to it, and `SELF_TYPE` is taken for the class around it wherever a type enters an expression. So
whatever else is wrong with a program, all static types mean the same in every class, and what is reported of types is
about classes only (`Program.warrants_survey`).
-/

namespace CoolLang

/-- Whether a problem is with a name as it is written, whatever the types around it. -/
def Problem.isOfName : Problem → Bool
  | unknownType _ | unknownVariable .. | readOnlySelf | illegalSelfType .. | duplicateBranch _ => true
  | _ => false

/-- Whether an operator is not for operands of two types because of the classes among these. -/
def Hierarchy.Clash (hierarchy : Hierarchy) (operator : Operator) (left right : TypeId) : Prop :=
  if operator = .equal then hierarchy.IsClass left ∧ hierarchy.IsClass right
  else hierarchy.IsClass left ∧ left ≠ .int ∨ hierarchy.IsClass right ∧ right ≠ .int

/-- Whether a diagnostic that typing reports is about a name, or else about classes that do not go together. -/
inductive Diagnostic.Warranted (hierarchy : Hierarchy) (exprs : List Expr) : Diagnostic → Prop where
  | name {position : Position} {problem : Problem} (ofName : problem.isOfName = true) :
      Warranted hierarchy exprs ⟨position, problem⟩
  | conversion {position : Position} {type expected : TypeId} (isClass : hierarchy.IsClass type)
      (isExpected : hierarchy.IsClass expected) (apart : hierarchy.conforms type expected = false) :
      Warranted hierarchy exprs ⟨position, .incompatibleTypes (hierarchy.name type) (hierarchy.name expected)⟩
  | method {position : Position} {name : String} {owner : TypeId} (isClass : hierarchy.IsClass owner)
      (missing : hierarchy.method? owner name = none) :
      Warranted hierarchy exprs ⟨position, .unknownMethod name (hierarchy.name owner)⟩
  | arity {position : Position} {name : String} {owner definer : TypeId} {known : Method} {args : Nat}
      (isClass : hierarchy.IsClass owner) (found : hierarchy.method? owner name = some (definer, known))
      (differs : known.params.length ≠ args) :
      Warranted hierarchy exprs ⟨position, .arityMismatch name (hierarchy.name owner) known.params.length args⟩
  | operation {note : Note} {operator : Operator} {left right : Expr} {one two : TypeId}
      (member : .binary note operator left right ∈ exprs) (ofLeft : left.type? = some one)
      (ofRight : right.type? = some two) (clash : hierarchy.Clash operator one two) :
      Warranted hierarchy exprs ⟨note.position, .invalidOperation (hierarchy.name one) (hierarchy.name two)⟩

/-! ### Conformance -/

/-- A type that does not conform to another one is a class, and so is that, if both mean the same in all classes. -/
theorem TypeId.Absolute.isClass_of_conforms {hierarchy : Hierarchy} {type expected : TypeId}
    (ofType : type.Absolute hierarchy.types.size) (ofExpected : expected.Absolute hierarchy.types.size)
    (apart : hierarchy.conforms type expected = false) : hierarchy.IsClass type ∧ hierarchy.IsClass expected := by
  have isClass {type : TypeId} (absolute : type.Absolute hierarchy.types.size) (isChecked : type.isChecked = true) :
      hierarchy.IsClass type := by
    obtain ⟨notError, notAuto⟩ := Bool.and_eq_true_iff.mp isChecked
    refine ⟨?_, absolute.known⟩
    rw [isConcrete, notError, notAuto, bne_iff_ne.mpr absolute.notSelf]
    rfl
  simp only [Hierarchy.conforms, Bool.or_eq_false_iff, Bool.not_eq_false'] at apart
  exact ⟨isClass ofType apart.1.1, isClass ofExpected apart.1.2⟩

theorem Surroundings.clash_of_admits {around : Surroundings} {operator : Operator} {left right : TypeId}
    (rooted : around.hierarchy.Rooted) (ofLeft : left.Absolute around.hierarchy.types.size)
    (ofRight : right.Absolute around.hierarchy.types.size) (refused : around.admits operator left right = false) :
    around.hierarchy.Clash operator left right := by
  have isInt : around.hierarchy.IsClass .int := rooted.isClass_builtin rfl (by decide)
  have other {type : TypeId} (absolute : type.Absolute around.hierarchy.types.size)
      (apart : around.hierarchy.conforms type .int = false) : around.hierarchy.IsClass type ∧ type ≠ .int := by
    refine ⟨(absolute.isClass_of_conforms isInt.absolute apart).1, ?_⟩
    rintro rfl
    rw [(isInt.conforms_iff isInt).mpr (rooted.mem_ancestors_self isInt)] at apart
    cases apart
  unfold Hierarchy.Clash
  unfold admits at refused
  split at refused
  · rw [if_pos rfl]
    simp only [comparable, Bool.or_eq_false_iff, Bool.not_eq_false'] at refused
    exact ⟨⟨refused.1.1, ofLeft.known⟩, refused.1.2, ofRight.known⟩
  · rename_i notEqual
    rw [if_neg notEqual]
    rcases Bool.and_eq_false_iff.mp refused with apart | apart
    · exact Or.inl (other ofLeft apart)
    · exact Or.inr (other ofRight apart)

/-! ### Surveys -/

/-- Whether expressions have static types, and such as mean the same in all classes. -/
def Expr.AllAbsolute (size : Nat) (exprs : List Expr) : Prop :=
  ∀ expr ∈ exprs, ∃ type, expr.type? = some type ∧ type.Absolute size

namespace Finding

/-- Whether a finding is about types that mean the same in all classes. -/
def Warranted (hierarchy : Hierarchy) (exprs : List Expr) : Finding → Prop
  | flow _ type expected _ =>
      type.Absolute hierarchy.types.size ∧ expected.Absolute hierarchy.types.size
  | fault diagnostic => diagnostic.Warranted hierarchy exprs

theorem Warranted.diagnostics {hierarchy : Hierarchy} {exprs : List Expr} {finding : Finding}
    (warranted : finding.Warranted hierarchy exprs) :
    ∀ diagnostic ∈ finding.diagnostics hierarchy, diagnostic.Warranted hierarchy exprs := by
  intro diagnostic member
  cases finding with
  | flow target type expected position =>
      rw [Finding.diagnostics] at member
      split at member
      · cases member
      · rename_i apart
        obtain rfl := List.mem_singleton.mp member
        rw [Bool.not_eq_true] at apart
        obtain ⟨isClass, isExpected⟩ := warranted.1.isClass_of_conforms warranted.2 apart
        exact .conversion isClass isExpected apart
  | fault _ =>
      obtain rfl := List.mem_singleton.mp member
      exact warranted

end Finding

namespace Survey

variable {α β : Type} {hierarchy : Hierarchy} {before : List Expr} {parts : α → List Expr} {property : α → Prop}
  {parts' : β → List Expr} {property' : β → Prop}

/-- What a survey is for which some expressions have been surveyed `before`: it comes to a value with a property, these
expressions are parts of the value and all others are typed, and the parts of the value warrant what is found. -/
structure Warrants (hierarchy : Hierarchy) (before : List Expr) (parts : α → List Expr) (property : α → Prop)
    (survey : Survey α) : Prop where
  value : property survey.value
  gathers : before ⊆ parts survey.value
  typed : Expr.AllAbsolute hierarchy.types.size before → Expr.AllAbsolute hierarchy.types.size (parts survey.value)
  findings : ∀ exprs, parts survey.value ⊆ exprs → ∀ finding ∈ survey.findings, finding.Warranted hierarchy exprs

/-- A survey that has nothing to do with expressions. -/
abbrev Settles (hierarchy : Hierarchy) (property : α → Prop) (survey : Survey α) : Prop :=
  survey.Warrants hierarchy [] (fun _ => []) property

namespace Warrants

theorem bind {survey : Survey α} {next : α → Survey β} (warrants : survey.Warrants hierarchy [] parts property)
    (later : ∀ value, property value →
      (next value).Warrants hierarchy (before ++ parts value) parts' property') :
    (survey >>= next).Warrants hierarchy before parts' property' := by
  obtain ⟨value, gathers, typed, findings⟩ := later _ warrants.value
  obtain ⟨kept, gathered⟩ := List.append_subset.mp gathers
  refine ⟨value, kept, fun areTyped => typed (List.forall_mem_append.mpr ⟨areTyped, warrants.typed nofun⟩),
    fun exprs within => List.forall_mem_append.mpr ⟨?_, findings exprs within⟩⟩
  exact warrants.findings exprs (List.Subset.trans gathered within)

theorem bindStep {survey : Survey α} {next : α → Survey β} (settles : survey.Settles hierarchy property)
    (later : ∀ value, property value → (next value).Warrants hierarchy before parts' property') :
    (survey >>= next).Warrants hierarchy before parts' property' :=
  settles.bind fun value holds => (List.append_nil before).symm ▸ later value holds

theorem pure {value : α} (holds : property value) (same : parts value = before) :
    (Pure.pure value : Survey α).Warrants hierarchy before parts property :=
  ⟨holds, same ▸ List.Subset.refl _, fun typed => same.symm ▸ typed, nofun⟩

theorem flow {target : Target} {type expected : TypeId} {position : Position}
    (ofType : type.Absolute hierarchy.types.size) (ofExpected : expected.Absolute hierarchy.types.size) :
    (Survey.flow target type expected position).Settles hierarchy fun _ => True :=
  ⟨trivial, nofun, id, fun _ _ => List.forall_mem_singleton.mpr ⟨ofType, ofExpected⟩⟩

/-- What is found on the way may be warranted by what the value has in it in the end. -/
theorem fault {position : Position} {problem : Problem} {survey : Survey α}
    (warrants : survey.Warrants hierarchy before parts property)
    (warranted : ∀ exprs, parts survey.value ⊆ exprs → Diagnostic.Warranted hierarchy exprs ⟨position, problem⟩) :
    (Survey.fault position problem >>= fun _ => survey).Warrants hierarchy before parts property :=
  ⟨warrants.value, warrants.gathers, warrants.typed, fun exprs within =>
    List.forall_mem_cons.mpr ⟨warranted exprs within, warrants.findings exprs within⟩⟩

/-- A fault that goes with a value that may stand for anything. -/
theorem refuse {position : Position} {problem : Problem} {value : α} (holds : property value)
    (warranted : ∀ exprs, Diagnostic.Warranted hierarchy exprs ⟨position, problem⟩) :
    (Survey.fault position problem >>= fun _ => Pure.pure value).Settles hierarchy property :=
  fault (pure holds rfl) fun exprs _ => warranted exprs

theorem diagnostics {survey : Survey α} (warrants : survey.Warrants hierarchy before parts property) :
    ∀ diagnostic ∈ survey.diagnostics hierarchy, diagnostic.Warranted hierarchy (parts survey.value) := by
  intro diagnostic member
  obtain ⟨finding, found, member⟩ := List.mem_flatMap.mp member
  exact (warrants.findings _ (List.Subset.refl _) finding found).diagnostics diagnostic member

end Warrants

/-- The expressions in one that has been typed. -/
def exprParts (typed : Expr × TypeId) : List Expr :=
  typed.1 :: typed.1.inside

/-- Whether an expression has the type that it has been found to have, and whether that means the same in all
classes. -/
structure Typed (size : Nat) (typed : Expr × TypeId) : Prop where
  noted : typed.1.type? = some typed.2
  absolute : typed.2.Absolute size

/-- An expression of which all parts have been typed. -/
theorem Warrants.node {expr : Expr} {type : TypeId} (noted : expr.type? = some type)
    (absolute : type.Absolute hierarchy.types.size) (inside : expr.inside = before) :
    (Pure.pure (expr, type) : Survey (Expr × TypeId)).Warrants hierarchy before exprParts
      (Typed hierarchy.types.size) :=
  ⟨⟨noted, absolute⟩, inside ▸ List.subset_cons_self .., fun typed =>
    List.forall_mem_cons.mpr ⟨⟨type, noted, absolute⟩, inside ▸ typed⟩, nofun⟩

end Survey

/-! ### Sites -/

/-- The declarations that are found in the scopes below a site, if it is in a tree. -/
def Site.Finds (site : Site) (declared : ScopeTree → Declarations) : Prop :=
  ∀ tree ∈ site.tree, tree.Shows (declared tree)

theorem Site.Finds.append {site : Site} {one two : ScopeTree → Declarations}
    (finds : site.Finds fun tree => one tree ++ two tree) : site.Finds one ∧ site.Finds two :=
  ⟨fun tree isTree => (finds tree isTree).append.1, fun tree isTree => (finds tree isTree).append.2⟩

theorem Site.Finds.cons {site : Site} {scope : ScopeTree → ScopeId} {written : List Variable}
    {later : ScopeTree → Declarations} (finds : site.Finds fun tree => (scope tree, written) :: later tree) :
    (∀ tree ∈ site.tree, List.Forall₂ Variable.Frames written (tree.slots (scope tree))) ∧ site.Finds later :=
  ⟨fun tree isTree => (finds tree isTree).cons.1, fun tree isTree => (finds tree isTree).cons.2⟩

/-- What is found in the scope at a place is found below the site inside it. -/
theorem Site.Finds.inside {site : Site} {place : Nat} (written : List Variable)
    (declared : ScopeTree → ScopeId → Declarations)
    (finds : site.Finds fun tree => declared tree (tree.child site.scope place)) :
    (site.inside place written).Finds fun tree => declared tree (site.inside place written).scope := by
  intro tree (isTree : site.tree = some tree)
  rw [Site.scope_inside isTree written]
  exact finds tree isTree

/-- What is declared with a type that means the same in all classes has such a type, whatever is inferred for it. -/
theorem Variable.Frames.absolute {hierarchy : Hierarchy} {before after : Variable} (frames : before.Frames after)
    (notSelf : before.type ≠ .selfType) (placed : after.Placed hierarchy) :
    after.type.Absolute hierarchy.types.size := by
  refine ⟨placed.known, ?_⟩
  cases inferred : after.inferred with
  | true => exact TypeId.ne_selfType_of_isConcrete (placed.concrete inferred)
  | false => exact frames.waits inferred ▸ notSelf

theorem Variable.headD_absolute {size : Nat} {infos : List Variable} {info : Variable}
    (absolute : info.type.Absolute size) (areAbsolute : ∀ info ∈ infos, info.type.Absolute size) :
    (infos.headD info).type.Absolute size := by
  cases infos with
  | nil => exact absolute
  | cons first _ => exact areAbsolute first List.mem_cons_self

theorem TypeId.resolveIn_ne_selfType {current : TypeId} (notSelf : current ≠ .selfType) (type : TypeId) :
    type.resolveIn current ≠ .selfType := by
  unfold resolveIn
  split
  · exact notSelf
  · assumption

namespace Site

/-- A site in which the hierarchy and the tree know all types, and `SELF_TYPE` stands for a class. The same holds of the
surroundings in which its variables have been declared. -/
structure Absolute (site : Site) (around : Surroundings) : Prop where
  rooted : site.hierarchy.Rooted
  valid : site.hierarchy.Valid False
  current : site.current.Absolute site.hierarchy.types.size
  notSelf : around.current ≠ .selfType
  env : ∀ info ∈ site.env, info.type.index < site.hierarchy.types.size
  placed : ∀ tree ∈ site.tree, ∀ id, (tree.variableAt id).Placed site.hierarchy

theorem bindingVariable_ne_selfType {around : Surroundings} (notSelf : around.current ≠ .selfType) (name : Ident)
    (written : Option Ident) :
    (around.bindingVariable name written).type ≠ .selfType := by
  cases written with
  | none => exact (by decide : TypeId.autoType ≠ TypeId.selfType)
  | some written => exact TypeId.resolveIn_ne_selfType notSelf _

theorem branchVariable_ne_selfType {around : Surroundings} (name written : Ident) :
    (around.branchVariable name written).type ≠ .selfType := by
  change Inference.castType around.hierarchy written ≠ .selfType
  unfold Inference.castType TypeId.expected?
  split
  · exact TypeId.ne_selfType_of_isConcrete ‹_›
  · decide

theorem featureVariables_ne_selfType {around : Surroundings} (notSelf : around.current ≠ .selfType)
    (feature : Feature) : ∀ info ∈ around.featureVariables feature, info.type ≠ .selfType := by
  rcases feature with decl | decl
  · exact List.forall_mem_singleton.mpr notSelf
  · refine List.forall_mem_cons.mpr ⟨notSelf, fun info member => ?_⟩
    obtain ⟨param, _, rfl⟩ := List.mem_map.mp member
    change around.paramType param ≠ .selfType
    unfold Surroundings.paramType
    split
    · split
      · decide
      · assumption
    · decide

open Survey

namespace Absolute

variable {site : Site} {around : Surroundings} (absolute : site.Absolute around)
include absolute

theorem gives : site.hierarchy.Gives (TypeId.Absolute site.hierarchy.types.size) :=
  Hierarchy.gives_absolute absolute.rooted absolute.valid

theorem resolveSelf {type : TypeId} (known : type.index < site.hierarchy.types.size) :
    (site.resolveSelf type).Absolute site.hierarchy.types.size :=
  absolute.current.resolveIn known

theorem declaredType (written : Ident) : (site.declaredType written).Absolute site.hierarchy.types.size := by
  refine absolute.resolveSelf ?_
  cases found : site.hierarchy.find? written.name with
  | none => exact absolute.gives.error.known
  | some type => exact (Hierarchy.find?_known found).1

theorem attributeType (decl : AttributeDecl) :
    (site.attributeType decl).Absolute site.hierarchy.types.size := by
  unfold Surroundings.attributeType
  split
  · rename_i attr found
    exact absolute.resolveSelf ((absolute.valid _).attributes attr (List.mem_of_find?_eq_some found)).known
  · exact absolute.declaredType decl.type

theorem resultType (decl : MethodDecl) : (site.resultType decl).Absolute site.hierarchy.types.size := by
  unfold Surroundings.resultType
  split
  · rename_i method found
    have member := List.mem_of_find?_eq_some (Option.filter_eq_some_iff.mp found).1
    exact absolute.resolveSelf ((absolute.valid _).methods method member).result.known
  · exact absolute.declaredType decl.result

theorem featureVariables (feature : Feature) :
    ∀ info ∈ site.featureVariables feature, info.type.Absolute site.hierarchy.types.size := by
  intro info member
  refine ⟨?_, featureVariables_ne_selfType absolute.current.notSelf feature info member⟩
  rcases feature with decl | decl
  · obtain rfl := List.mem_singleton.mp member
    exact absolute.current.known
  · rcases List.mem_cons.mp member with rfl | member
    · exact absolute.current.known
    · obtain ⟨param, _, rfl⟩ := List.mem_map.mp member
      change (site.paramType param).index < _
      unfold Surroundings.paramType
      split
      · split
        · exact absolute.gives.error.known
        · exact (Hierarchy.find?_known ‹_›).1
      · exact absolute.gives.error.known

/-! ### Steps -/

theorem settles_fail {position : Position} {problem : Problem} (ofName : problem.isOfName = true) :
    (Survey.fault position problem >>= fun _ => Pure.pure TypeId.error).Settles site.hierarchy
      (TypeId.Absolute site.hierarchy.types.size) :=
  .refuse absolute.gives.error fun _ => .name ofName

theorem lookUp? {name : String} {info : Variable} (found : site.lookUp? name = some info) :
    (site.resolveSelf info.type).Absolute site.hierarchy.types.size :=
  absolute.resolveSelf (absolute.env info (List.mem_of_find?_eq_some found))

theorem typeOfName (name : String) (position : Position) :
    (site.typeOfName name position).Settles site.hierarchy (TypeId.Absolute site.hierarchy.types.size) := by
  unfold Site.typeOfName
  split
  · exact .pure (absolute.lookUp? ‹_›) rfl
  · exact absolute.settles_fail rfl

theorem surveyTarget (target : Ident) {type : TypeId} (ofType : type.Absolute site.hierarchy.types.size)
    (position : Position) :
    (site.surveyTarget target type position).Settles site.hierarchy fun _ => True := by
  have refused {problem : Problem} (ofName : problem.isOfName = true) :
      (Survey.fault target.position problem).Settles site.hierarchy fun _ => True :=
    .refuse trivial fun _ => .name ofName
  unfold Site.surveyTarget
  split
  · exact refused rfl
  · split
    · exact .flow ofType (absolute.lookUp? ‹_›)
    · exact refused rfl

theorem dispatchType {receiver : TypeId} (ofReceiver : receiver.Absolute site.hierarchy.types.size)
    (cast : Option Ident) :
    (site.dispatchType receiver cast).Settles site.hierarchy (TypeId.Absolute site.hierarchy.types.size) := by
  cases cast with
  | none => exact .pure ofReceiver rfl
  | some written =>
      unfold Site.dispatchType Hierarchy.get
      dsimp only
      cases names : site.hierarchy.find? written.name with
      | none => exact absolute.settles_fail rfl
      | some type =>
          dsimp only
          split
          · rename_i concrete
            have ofType := absolute.gives.written _ _ names concrete
            exact (Warrants.flow ofReceiver ofType).bindStep fun _ _ => .pure ofType rfl
          · exact absolute.settles_fail rfl

/-- What is known of what a dispatch calls. -/
structure Calls (size : Nat) (callee : Method ⊕ TypeId) : Prop where
  params : ∀ param ∈ calleeParams callee, param.type.Absolute size
  result : ∀ receiver : TypeId, receiver.Absolute size → (calleeResult receiver callee).Absolute size

omit absolute in
theorem calls_unknown {size : Nat} {type : TypeId} (ofType : type.Absolute size) : Calls size (.inr type) :=
  ⟨nofun, fun _ _ => ofType⟩

theorem callee {owner : TypeId} (ofOwner : owner.Absolute site.hierarchy.types.size) (method : Ident) (args : Nat) :
    (site.callee owner method args).Settles site.hierarchy (Calls site.hierarchy.types.size) := by
  unfold Site.callee
  split
  · exact .pure (calls_unknown ofOwner) rfl
  · rename_i concrete
    rw [Bool.not_eq_true, Bool.not_eq_false'] at concrete
    have isClass : site.hierarchy.IsClass owner := ⟨concrete, ofOwner.known⟩
    cases found : site.hierarchy.method? owner method.name with
    | none => exact .refuse (calls_unknown absolute.gives.error) fun _ => .method isClass found
    | some definition =>
        obtain ⟨definer, known⟩ := definition
        have valid := Hierarchy.method?_valid absolute.valid found
        dsimp only
        split
        · refine .pure ⟨fun param member => ?_, fun receiver ofReceiver => ?_⟩ rfl
          · exact ⟨(valid.params param member).1.known, (valid.params param member).2⟩
          · exact ofReceiver.resolveIn valid.result.known
        · exact .refuse (calls_unknown absolute.gives.error) fun _ => .arity isClass found ‹_›

theorem bindingType (written : Option Ident) :
    (site.bindingType written).Settles site.hierarchy (TypeId.Absolute site.hierarchy.types.size) := by
  cases written with
  | none => exact .pure ⟨Nat.lt_of_lt_of_le (by decide) absolute.rooted.builtins, nofun⟩ rfl
  | some written =>
      unfold Site.bindingType Hierarchy.get
      dsimp only
      cases names : site.hierarchy.find? written.name with
      | none => exact absolute.settles_fail rfl
      | some type => exact .pure (absolute.resolveSelf (Hierarchy.find?_known names).1) rfl

theorem branchType (seen : List TypeId) (written : Ident) :
    (site.branchType seen written).Settles site.hierarchy
      fun result => result.1.Absolute site.hierarchy.types.size := by
  have refused {problem : Problem} {result : TypeId × List TypeId} (ofName : problem.isOfName = true)
      (ofResult : result.1.Absolute site.hierarchy.types.size) :
      (Survey.fault written.position problem >>= fun _ => Pure.pure result).Settles site.hierarchy
        fun result => result.1.Absolute site.hierarchy.types.size :=
    .refuse ofResult fun _ => .name ofName
  unfold Site.branchType Hierarchy.get
  cases names : site.hierarchy.find? written.name with
  | none => exact refused rfl absolute.gives.error
  | some type =>
      dsimp only
      split
      · exact refused rfl absolute.gives.error
      · rename_i concrete
        rw [Bool.not_eq_true, Bool.not_eq_false'] at concrete
        have ofType := absolute.gives.written _ _ names concrete
        split
        · exact refused rfl ofType
        · exact .pure ofType rfl

theorem newType (written : Ident) :
    (site.newType written).Settles site.hierarchy (TypeId.Absolute site.hierarchy.types.size) := by
  unfold Site.newType Hierarchy.get
  cases names : site.hierarchy.find? written.name with
  | none => exact absolute.settles_fail rfl
  | some type =>
      dsimp only
      split
      · exact .pure absolute.current rfl
      · split
        · exact absolute.settles_fail rfl
        · exact .pure ⟨(Hierarchy.find?_known names).1, ‹_›⟩ rfl

/-! ### Scopes -/

/-- Variables that are in scope have types that mean the same in all classes, as they are declared or as the tree has
them. -/
theorem slots (place : Nat) (written : List Variable) {declared : List Variable}
    (areAbsolute : ∀ info ∈ written, info.type.Absolute site.hierarchy.types.size)
    (notSelf : ∀ info ∈ declared, info.type ≠ .selfType)
    (shown : ∀ tree ∈ site.tree,
      List.Forall₂ Variable.Frames declared (tree.slots (tree.child site.scope place))) :
    ∀ info ∈ site.slots place written, info.type.Absolute site.hierarchy.types.size := by
  unfold Site.slots Site.child
  cases isTree : site.tree with
  | none => exact areAbsolute
  | some tree =>
      intro info member
      obtain ⟨before, isDeclared, frames⟩ := exists_of_mem_right (shown tree isTree) member
      obtain ⟨id, _, rfl⟩ := List.mem_map.mp member
      exact frames.absolute (notSelf before isDeclared) (absolute.placed tree isTree id)

theorem inside (place : Nat) (written : List Variable)
    (areAbsolute : ∀ info ∈ site.slots place written, info.type.Absolute site.hierarchy.types.size) :
    (site.inside place written).Absolute around :=
  { absolute with
    env := List.forall_mem_append.mpr ⟨fun info member => (areAbsolute info member).known, absolute.env⟩ }

end Absolute

/-! ### Expressions -/

section

variable {around : Surroundings}

-- By recursion over the syntax. What holds of the site, holds of the site inside each scope that is opened
-- (`Absolute.inside`), so no rule has to look at more than what it compares.
mutual

/-- Whatever is found about an expression is warranted by the expressions in it. -/
theorem warrants_survey (site : Site) (absolute : site.Absolute around) (place : Nat) : (expr : Expr) →
    site.Finds (fun tree => around.declarations tree site.scope place expr) →
    (site.survey place expr).Warrants site.hierarchy [] exprParts (Typed site.hierarchy.types.size)
  | .integer .., _ => by
      rw [survey]
      exact .node rfl absolute.gives.int (by rw [Expr.inside])
  | .string .., _ => by
      rw [survey]
      exact .node rfl absolute.gives.string (by rw [Expr.inside])
  | .boolean .., _ => by
      rw [survey]
      exact .node rfl absolute.gives.bool (by rw [Expr.inside])
  | .identifier note name, _ => by
      rw [survey]
      exact (absolute.typeOfName name note.position).bindStep fun _ ofType =>
        .node rfl ofType (by rw [Expr.inside])
  | .assign note target value, finds => by
      simp only [Surroundings.declarations] at finds
      rw [survey]
      exact (warrants_survey site absolute place value finds).bind fun ⟨value, type⟩ ⟨_, ofType⟩ =>
        (absolute.surveyTarget target ofType value.position).bindStep fun _ _ =>
        .node rfl ofType (by rw [Expr.inside]; rfl)
  | .dispatch note receiver cast method args, finds => by
      simp only [Surroundings.declarations] at finds
      rw [survey]
      exact (warrants_surveyReceiver site absolute place receiver finds.append.1).bind
        fun ⟨receiver, receiverType⟩ ofReceiver =>
        (absolute.dispatchType ofReceiver cast).bindStep fun owner ofOwner =>
        (absolute.callee ofOwner method args.length).bindStep fun callee calls =>
        (warrants_surveyArgs site absolute _ args _ calls.params finds.append.2).bind fun args _ =>
        .node rfl (calls.result receiverType ofReceiver) (by rw [Expr.inside]; rfl)
  | .cond note test yes no, finds => by
      simp only [Surroundings.declarations] at finds
      rw [survey]
      obtain ⟨first, second, third⟩ := And.imp_right Finds.append finds.append
      exact (warrants_survey site absolute place test first).bind fun ⟨test, testType⟩ ⟨_, ofTest⟩ =>
        (Warrants.flow ofTest absolute.gives.bool).bindStep fun _ _ =>
        (warrants_survey site absolute _ yes second).bind fun ⟨yes, yesType⟩ ⟨_, ofYes⟩ =>
        (warrants_survey site absolute _ no third).bind fun ⟨no, noType⟩ ⟨_, ofNo⟩ =>
        .node rfl (absolute.gives.union ofYes ofNo) (by rw [Expr.inside]; simp [exprParts])
  | .loop note test body, finds => by
      simp only [Surroundings.declarations] at finds
      rw [survey]
      exact (warrants_survey site absolute place test finds.append.1).bind fun ⟨test, testType⟩ ⟨_, ofTest⟩ =>
        (Warrants.flow ofTest absolute.gives.bool).bindStep fun _ _ =>
        (warrants_survey site absolute _ body finds.append.2).bind fun ⟨body, _⟩ _ =>
        .node rfl absolute.gives.object (by rw [Expr.inside]; simp [exprParts])
  | .block note body, finds => by
      simp only [Surroundings.declarations] at finds
      rw [survey]
      obtain ⟨shown, finds⟩ := finds.cons
      have inner := absolute.inside place []
        (absolute.slots place [] (List.forall_mem_nil _) (List.forall_mem_nil _) shown)
      have finds := finds.inside [] fun tree scope => around.declarationsAll tree scope 0 body
      exact (warrants_surveyAll (site.inside place []) inner 0 .object absolute.gives.object body finds).bind
        fun ⟨body, type⟩ ofType => .node rfl ofType (by rw [Expr.inside]; rfl)
  | .letIn note bindings body, finds => by
      simp only [Surroundings.declarations] at finds
      rw [survey]
      exact (warrants_surveyBindings site absolute place (fun inner absolute place finds =>
        warrants_survey inner absolute place body finds) bindings finds).bind
        fun ⟨bindings, body, type⟩ typed => .node rfl typed.absolute (by rw [Expr.inside]; rfl)
  | .caseOf note scrutinee branches, finds => by
      simp only [Surroundings.declarations] at finds
      rw [survey]
      refine (warrants_survey site absolute place scrutinee finds.append.1).bind fun ⟨scrutinee, _⟩ _ =>
        (warrants_surveyBranches site absolute _ [] none nofun branches finds.append.2).bind
        fun ⟨branches, type⟩ ofType => .node rfl ?_ (by rw [Expr.inside]; rfl)
      cases type with
      | none => exact absolute.gives.error
      | some type => exact ofType type rfl
  | .new note written, _ => by
      rw [survey]
      exact (absolute.newType written).bindStep fun _ ofType => .node rfl ofType (by rw [Expr.inside])
  | .isVoid note operand, finds => by
      simp only [Surroundings.declarations] at finds
      rw [survey]
      exact (warrants_survey site absolute place operand finds).bind fun ⟨operand, _⟩ _ =>
        .node rfl absolute.gives.bool (by rw [Expr.inside]; rfl)
  | .not note operand, finds => by
      simp only [Surroundings.declarations] at finds
      rw [survey]
      exact (warrants_survey site absolute place operand finds).bind fun ⟨operand, _⟩ ⟨_, ofOperand⟩ =>
        (Warrants.flow ofOperand absolute.gives.bool).bindStep fun _ _ =>
        .node rfl absolute.gives.bool (by rw [Expr.inside]; rfl)
  | .complement note operand, finds => by
      simp only [Surroundings.declarations] at finds
      rw [survey]
      exact (warrants_survey site absolute place operand finds).bind fun ⟨operand, _⟩ ⟨_, ofOperand⟩ =>
        (Warrants.flow ofOperand absolute.gives.int).bindStep fun _ _ =>
        .node rfl absolute.gives.int (by rw [Expr.inside]; rfl)
  | .binary note operator left right, finds => by
      simp only [Surroundings.declarations] at finds
      rw [survey]
      refine (warrants_survey site absolute place left finds.append.1).bind fun ⟨left, one⟩ ofLeft =>
        (warrants_survey site absolute _ right finds.append.2).bind fun ⟨right, two⟩ ofRight => ?_
      have whole : (Pure.pure (.binary (note.typed operator.resultType) operator left right, operator.resultType) :
          Survey (Expr × TypeId)).Warrants site.hierarchy ([] ++ exprParts (left, one) ++ exprParts (right, two))
          exprParts (Typed site.hierarchy.types.size) :=
        .node rfl (absolute.gives.resultType operator) (by rw [Expr.inside]; simp [exprParts])
      -- The operands have their types in the value that is made, so the fault can point to them there.
      dsimp only
      split
      · rename_i refused
        rw [Bool.not_eq_true'] at refused
        have clash := site.clash_of_admits absolute.rooted ofLeft.absolute ofRight.absolute refused
        refine whole.fault fun exprs within => ?_
        exact @Diagnostic.Warranted.operation _ _ (note.typed operator.resultType) _ _ _ _ _
          (within List.mem_cons_self) ofLeft.noted ofRight.noted clash
      · exact whole

theorem warrants_surveyReceiver (site : Site) (absolute : site.Absolute around) (place : Nat) :
    (receiver : Option Expr) →
    site.Finds (fun tree => around.declarationsOption tree site.scope place receiver) →
    (site.surveyReceiver place receiver).Warrants site.hierarchy [] (fun typed => Expr.insideOption typed.1)
      fun typed => typed.2.Absolute site.hierarchy.types.size
  | none, _ => by
      rw [surveyReceiver]
      exact .pure absolute.current (by rw [Expr.insideOption])
  | some receiver, finds => by
      simp only [Surroundings.declarationsOption] at finds
      rw [surveyReceiver]
      exact (warrants_survey site absolute place receiver finds).bind fun ⟨receiver, type⟩ ⟨_, ofType⟩ =>
        .pure ofType (by rw [Expr.insideOption]; rfl)

theorem warrants_surveyArgs (site : Site) (absolute : site.Absolute around) (place : Nat) : (args : List Expr) →
    (params : List Variable) → (∀ param ∈ params, param.type.Absolute site.hierarchy.types.size) →
    site.Finds (fun tree => around.declarationsAll tree site.scope place args) →
    (site.surveyArgs place args params).Warrants site.hierarchy [] Expr.insideAll fun _ => True
  | [], _, _, _ => by
      rw [surveyArgs]
      exact .pure trivial (by rw [Expr.insideAll])
  | arg :: args, params, areAbsolute, finds => by
      simp only [Surroundings.declarationsAll] at finds
      rw [surveyArgs]
      refine (warrants_survey site absolute place arg finds.append.1).bind fun ⟨arg, type⟩ ⟨_, ofArg⟩ => ?_
      cases params with
      | nil =>
          exact (warrants_surveyArgs site absolute _ args [] nofun finds.append.2).bind fun args _ =>
            .pure trivial (by rw [Expr.insideAll]; rfl)
      | cons param params =>
          obtain ⟨ofParam, areAbsolute⟩ := List.forall_mem_cons.mp areAbsolute
          exact (Warrants.flow ofArg ofParam).bindStep fun _ _ =>
            (warrants_surveyArgs site absolute _ args params areAbsolute finds.append.2).bind fun args _ =>
            .pure trivial (by rw [Expr.insideAll]; rfl)

theorem warrants_surveyAll (site : Site) (absolute : site.Absolute around) (place : Nat) (last : TypeId)
    (ofLast : last.Absolute site.hierarchy.types.size) : (exprs : List Expr) →
    site.Finds (fun tree => around.declarationsAll tree site.scope place exprs) →
    (site.surveyAll place last exprs).Warrants site.hierarchy [] (fun typed => Expr.insideAll typed.1)
      fun typed => typed.2.Absolute site.hierarchy.types.size
  | [], _ => by
      rw [surveyAll]
      exact .pure ofLast (by rw [Expr.insideAll])
  | expr :: exprs, finds => by
      simp only [Surroundings.declarationsAll] at finds
      rw [surveyAll]
      exact (warrants_survey site absolute place expr finds.append.1).bind fun ⟨expr, type⟩ ⟨_, ofType⟩ =>
        (warrants_surveyAll site absolute _ type ofType exprs finds.append.2).bind fun ⟨exprs, type⟩ ofType =>
        .pure ofType (by rw [Expr.insideAll]; rfl)

/-- The body is surveyed at any site inside. -/
theorem warrants_surveyBindings (site : Site) (absolute : site.Absolute around) (place : Nat)
    {body : Site → Nat → Survey (Expr × TypeId)} {ofBody : ScopeTree → ScopeId → Nat → Declarations}
    (warrants : ∀ inner : Site, inner.Absolute around → ∀ place,
      inner.Finds (fun tree => ofBody tree inner.scope place) →
      (body inner place).Warrants inner.hierarchy [] exprParts (Typed inner.hierarchy.types.size)) :
    (bindings : List (Binding Expr)) →
    site.Finds (fun tree => around.declarationsBindings tree site.scope place bindings (ofBody tree)) →
    (site.surveyBindings place bindings body).Warrants site.hierarchy []
      (fun typed => Expr.insideBindings typed.1 ++ exprParts typed.2) fun typed => Typed site.hierarchy.types.size typed.2
  | [], finds => by
      simp only [Surroundings.declarationsBindings] at finds
      rw [surveyBindings]
      exact (warrants site absolute place finds).bind fun ⟨body, type⟩ typed =>
        .pure typed (by rw [Expr.insideBindings])
  | ⟨name, written, init⟩ :: bindings, finds => by
      simp only [Surroundings.declarationsBindings] at finds
      obtain ⟨first, finds⟩ := finds.append
      obtain ⟨shown, finds⟩ := finds.cons
      rw [surveyBindings]
      refine (absolute.bindingType written).bindStep fun declared ofDeclared =>
        (warrants_surveyInit site absolute place init first).bind fun init' ofInit => ?_
      have slots := absolute.slots _ [.declared name.name declared] (List.forall_mem_singleton.mpr ofDeclared)
        (List.forall_mem_singleton.mpr (bindingVariable_ne_selfType absolute.notSelf name written)) shown
      have finds := finds.inside [.declared name.name declared]
        fun tree scope => around.declarationsBindings tree scope 0 bindings (ofBody tree)
      have rest : Survey.Warrants site.hierarchy ([] ++ Expr.insideOption (init'.map Prod.fst))
          (fun typed => Expr.insideBindings typed.1 ++ exprParts typed.2)
          (fun typed => Typed site.hierarchy.types.size typed.2)
          (surveyBindings (site.inside _ [.declared name.name declared]) 0 bindings body >>= fun typed =>
            pure (⟨name, written, init'.map Prod.fst⟩ :: typed.1, typed.2)) :=
        (warrants_surveyBindings _ (absolute.inside _ _ slots) 0 warrants bindings finds).bind fun _ ofBody =>
          .pure ofBody (by simp [Expr.insideBindings])
      -- The initializer has to conform to the type that the variable has by now, which inference may have filled in.
      have ofInfo := @Variable.headD_absolute _ _ (.declared name.name declared) ofDeclared slots
      cases init' with
      | none => exact rest
      | some typed => exact (Warrants.flow (ofInit typed rfl) ofInfo).bindStep fun _ _ => rest

theorem warrants_surveyInit (site : Site) (absolute : site.Absolute around) (place : Nat) : (init : Option Expr) →
    site.Finds (fun tree => around.declarationsOption tree site.scope place init) →
    (site.surveyInit place init).Warrants site.hierarchy [] (fun typed => Expr.insideOption (typed.map Prod.fst))
      fun result => ∀ typed ∈ result, typed.2.Absolute site.hierarchy.types.size
  | none, _ => by
      rw [surveyInit]
      exact .pure nofun (by rw [Option.map_none, Expr.insideOption])
  | some init, finds => by
      simp only [Surroundings.declarationsOption] at finds
      rw [surveyInit]
      exact (warrants_survey site absolute place init finds).bind fun ⟨init, type⟩ ⟨_, ofType⟩ =>
        .pure (fun _ same => Option.some.inj same ▸ ofType) (by rw [Option.map_some, Expr.insideOption]; rfl)

theorem warrants_surveyBranches (site : Site) (absolute : site.Absolute around) (place : Nat) (seen : List TypeId)
    (type : Option TypeId) (ofType : ∀ known ∈ type, known.Absolute site.hierarchy.types.size) :
    (branches : List (Branch Expr)) →
    site.Finds (fun tree => around.declarationsBranches tree site.scope place branches) →
    (site.surveyBranches place seen type branches).Warrants site.hierarchy []
      (fun typed => Expr.insideBranches typed.1)
      fun typed => ∀ known ∈ typed.2, known.Absolute site.hierarchy.types.size
  | [], _ => by
      rw [surveyBranches]
      exact .pure ofType (by rw [Expr.insideBranches])
  | ⟨name, written, body⟩ :: branches, finds => by
      simp only [Surroundings.declarationsBranches] at finds
      obtain ⟨shown, finds⟩ := finds.cons
      rw [surveyBranches]
      refine (absolute.branchType seen written).bindStep fun ⟨declared, seen⟩ ofDeclared => ?_
      have inner := absolute.inside place [.declared name.name declared]
        (absolute.slots place [.declared name.name declared] (List.forall_mem_singleton.mpr ofDeclared)
          (List.forall_mem_singleton.mpr (branchVariable_ne_selfType name written)) shown)
      have ofBody := finds.append.1.inside [.declared name.name declared]
        fun tree scope => around.declarations tree scope 0 body
      refine (warrants_survey _ inner 0 body ofBody).bind fun ⟨body, bodyType⟩ ⟨_, ofBodyType⟩ => ?_
      have ofUnion : ∀ known ∈ some (type.elim bodyType fun type => site.hierarchy.union type bodyType),
          known.Absolute site.hierarchy.types.size := by
        rintro _ ⟨⟩
        cases type with
        | none => exact ofBodyType
        | some type => exact absolute.gives.union (ofType type rfl) ofBodyType
      exact (warrants_surveyBranches site absolute (place + 1) seen _ ofUnion branches finds.append.2).bind
        fun ⟨branches, type⟩ ofType => .pure ofType (by rw [Expr.insideBranches]; rfl)

end

/-! ### Features -/

variable {site : Site} (absolute : site.Absolute around)
include absolute

theorem warrants_surveyAttribute (decl : AttributeDecl)
    (finds : site.Finds fun tree => around.declarationsOption tree site.scope 0 decl.init) :
    (site.surveyAttribute decl).Warrants site.hierarchy [] (fun decl => (Feature.attribute decl).exprs)
      fun _ => True := by
  obtain ⟨name, written, _ | init⟩ := decl
  · exact .pure trivial rfl
  · simp only [Surroundings.declarationsOption] at finds
    exact (warrants_survey site absolute 0 init finds).bind fun ⟨init, type⟩ ⟨_, ofInit⟩ =>
      (Warrants.flow ofInit (absolute.attributeType _)).bindStep fun _ _ => .pure trivial rfl

theorem warrants_surveyMethod (decl : MethodDecl)
    (finds : site.Finds fun tree => around.declarations tree site.scope 0 decl.body) :
    (site.surveyMethod decl).Warrants site.hierarchy [] (fun decl => (Feature.method decl).exprs) fun _ => True :=
  (warrants_survey site absolute 0 decl.body finds).bind fun _ ⟨_, ofBody⟩ =>
    (Warrants.flow ofBody (absolute.resultType decl)).bindStep fun _ _ => .pure trivial rfl

theorem Absolute.withFeature (name : String) :
    ({ site with feature := name } : Site).Absolute { around with feature := name } :=
  { absolute with }

theorem warrants_surveyFeature (place : Nat) (feature : Feature)
    (finds : site.Finds fun tree => around.declarationsFeature tree site.scope place feature) :
    (site.surveyFeature place feature).Warrants site.hierarchy [] Feature.exprs fun _ => True := by
  obtain ⟨shown, finds⟩ := finds.cons
  have slots := absolute.slots place (site.featureVariables feature) (absolute.featureVariables feature)
    (featureVariables_ne_selfType absolute.notSelf feature) shown
  have inner := absolute.inside place (site.featureVariables feature) slots
  rcases feature with decl | decl
  · have finds := finds.inside (site.featureVariables (.attribute decl)) fun tree scope =>
      Surroundings.declarationsOption { around with feature := decl.name.name } tree scope 0 decl.init
    exact (warrants_surveyAttribute (inner.withFeature decl.name.name) decl finds).bind fun decl _ =>
      .pure trivial rfl
  · have finds := finds.inside (site.featureVariables (.method decl)) fun tree scope =>
      Surroundings.declarations { around with feature := decl.name.name } tree scope 0 decl.body
    exact (warrants_surveyMethod (inner.withFeature decl.name.name) decl finds).bind fun decl _ =>
      .pure trivial rfl

theorem warrants_surveyFeatures (place : Nat) (features : List Feature)
    (finds : site.Finds fun tree => around.declarationsFeatures tree site.scope place features) :
    (site.surveyFeatures place features).Warrants site.hierarchy [] (List.flatMap Feature.exprs) fun _ => True := by
  induction features generalizing place with
  | nil => exact .pure trivial rfl
  | cons feature features ih =>
      exact (warrants_surveyFeature absolute place feature finds.append.1).bind fun feature _ =>
        (ih (place + 1) finds.append.2).bind fun features _ => .pure trivial rfl

theorem warrants_surveyClass (decl : ClassDecl)
    (finds : site.Finds fun tree => around.declarationsFeatures tree site.scope 0 decl.features) :
    (site.surveyClass decl).Warrants site.hierarchy [] ClassDecl.exprs fun _ => True :=
  (warrants_surveyFeatures absolute 0 decl.features finds).bind fun _ _ => .pure trivial rfl

end

end Site

/-- The expressions of all classes that have a type. -/
def Program.typedExprs (program : Program) (types : ClassTypes) : List Expr :=
  (program.typed types).flatMap fun class' => class'.1.exprs

namespace Site

open Survey

/-! ### Classes -/

section

variable {hierarchy declared : Hierarchy} {tree : Option ScopeTree} {all : ClassTypes}
  (rooted : hierarchy.Rooted) (valid : hierarchy.Valid False)
  (placed : ∀ known ∈ tree, ∀ id, (known.variableAt id).Placed hierarchy)
include rooted valid placed

theorem absolute_ofClass {type : TypeId} (isClass : hierarchy.IsClass type) (place : Nat) :
    (ofClass hierarchy tree all type place).Absolute ⟨declared, type, ""⟩ := by
  refine ⟨rooted, valid, isClass.absolute, isClass.absolute.notSelf, fun info member => ?_, placed⟩
  rw [ofClass, Site.inside, List.append_nil, slots] at member
  cases isTree : tree with
  | none =>
      rw [isTree] at member
      obtain ⟨owner, _, member⟩ := List.mem_flatMap.mp member
      split at member
      · obtain ⟨attr, isAttribute, rfl⟩ := List.mem_map.mp member
        exact ((valid owner).attributes attr isAttribute).known
      · cases member
  | some known =>
      rw [isTree] at member
      obtain ⟨id, _, rfl⟩ := List.mem_map.mp member
      exact (placed known isTree id).known

omit rooted valid placed in
/-- The next class stands in the next scope. -/
theorem shows_next {known : ScopeTree} {decl : ClassDecl} {decls : List ClassDecl} {type : TypeId} {types : ClassTypes}
    {place : Nat} (enough : ((some type :: types).filterMap id).length ≤
      ((known.children ScopeTree.root).drop place).length)
    (shows : known.Shows (declarationsClasses declared all known (decl :: decls) (some type :: types)
      ((known.children ScopeTree.root).drop place))) :
    known.Shows (Surroundings.declarationsFeatures ⟨declared, type, ""⟩ known (known.child ScopeTree.root place) 0
        decl.features) ∧
      (types.filterMap id).length ≤ ((known.children ScopeTree.root).drop (place + 1)).length ∧
      known.Shows (declarationsClasses declared all known decls types
        ((known.children ScopeTree.root).drop (place + 1))) := by
  cases left : (known.children ScopeTree.root).drop place with
  | nil =>
      rw [left] at enough
      exact absurd enough (Nat.not_succ_le_zero _)
  | cons scope scopes =>
      obtain ⟨isNext, rest⟩ := next_of_drop left
      rw [left] at enough shows
      rw [ScopeTree.child_of_getElem? isNext, rest]
      exact ⟨shows.cons.2.append.1, Nat.le_of_succ_le_succ enough, shows.cons.2.append.2⟩

theorem warrants_surveyClasses (decls : List ClassDecl) (types : ClassTypes) (place : Nat)
    (areClasses : ∀ type, some type ∈ types → hierarchy.IsClass type)
    (enough : ∀ known ∈ tree, (types.filterMap id).length ≤ ((known.children ScopeTree.root).drop place).length)
    (shows : ∀ known ∈ tree, known.Shows
      (declarationsClasses declared all known decls types ((known.children ScopeTree.root).drop place))) :
    (surveyClasses hierarchy tree all place decls types).Warrants hierarchy []
      (fun decls => Program.typedExprs ⟨decls⟩ types) fun _ => True := by
  induction decls generalizing types place with
  | nil => rcases types with _ | ⟨_ | type, types⟩ <;> exact .pure trivial rfl
  | cons decl decls ih =>
      rcases types with _ | ⟨_ | type, types⟩
      · exact .pure trivial rfl
      · have later := ih types place (fun type member => areClasses type (List.mem_cons_of_mem _ member)) enough shows
        exact later.bind fun decls _ => .pure trivial rfl
      · have next (known : ScopeTree) (isTree : known ∈ tree) := shows_next (enough known isTree) (shows known isTree)
        have absolute : (ofClass hierarchy tree all type place).Absolute ⟨declared, type, ""⟩ :=
          absolute_ofClass rooted valid placed (areClasses type List.mem_cons_self) place
        have finds : (ofClass hierarchy tree all type place).Finds fun known =>
            Surroundings.declarationsFeatures ⟨declared, type, ""⟩ known (ofClass hierarchy tree all type place).scope 0
              decl.features := by
          intro known (isTree : tree = some known)
          rw [ofClass, scope_inside isTree]
          exact (next known isTree).1
        have later := ih types (place + 1) (fun type member => areClasses type (List.mem_cons_of_mem _ member))
          (fun known isTree => (next known isTree).2.1) fun known isTree => (next known isTree).2.2
        rw [surveyClasses]
        exact (warrants_surveyClass absolute decl finds).bind fun decl _ => later.bind fun decls _ =>
          .pure trivial rfl

end

/-- Classes without a type stay as they are. -/
theorem mem_exprs_surveyClasses (hierarchy : Hierarchy) (tree : Option ScopeTree) (all : ClassTypes)
    (decls : List ClassDecl) (types : ClassTypes) (place : Nat) {expr : Expr}
    (member : expr ∈ (surveyClasses hierarchy tree all place decls types).value.flatMap ClassDecl.exprs) :
    expr ∈ Program.typedExprs ⟨(surveyClasses hierarchy tree all place decls types).value⟩ types ∨
      expr ∈ decls.flatMap ClassDecl.exprs := by
  induction decls generalizing types place with
  | nil => rcases types with _ | ⟨_ | type, types⟩ <;> exact Or.inr member
  | cons decl decls ih =>
      rcases types with _ | ⟨_ | type, types⟩
      · exact Or.inr member
      · rcases List.mem_append.mp member with inside | later
        · exact Or.inr (List.mem_append_left _ inside)
        · exact (ih types place later).imp id (List.mem_append_right _)
      · rcases List.mem_append.mp member with inside | later
        · exact Or.inl (List.mem_append_left _ inside)
        · exact (ih types (place + 1) later).imp (List.mem_append_right _) (List.mem_append_right _)

end Site

namespace Program

variable (program : Program) (types : ClassTypes) {hierarchy declared : Hierarchy} {tree : Option ScopeTree}

/-- What a survey of a program finds is warranted by the expressions of the classes that have a type, all of which have
types that mean the same in all classes. -/
theorem warrants_survey (rooted : hierarchy.Rooted) (valid : hierarchy.Valid False)
    (areClasses : ∀ type, some type ∈ types → hierarchy.IsClass type)
    (placed : ∀ known ∈ tree, ∀ id, (known.variableAt id).Placed hierarchy)
    (enough : ∀ known ∈ tree, (types.filterMap id).length ≤ (known.children ScopeTree.root).length)
    (shows : ∀ known ∈ tree, known.Shows (program.declarations types declared known)) :
    Expr.AllAbsolute hierarchy.types.size ((program.survey types hierarchy tree).value.typedExprs types) ∧
      ∀ diagnostic ∈ (program.survey types hierarchy tree).diagnostics hierarchy,
        diagnostic.Warranted hierarchy ((program.survey types hierarchy tree).value.typedExprs types) := by
  have classes := @Site.warrants_surveyClasses hierarchy declared tree types rooted valid placed program.classes types 0
    areClasses enough shows
  rw [Program.survey, Survey.diagnostics_map]
  exact ⟨classes.typed (List.forall_mem_nil _), classes.diagnostics⟩

end Program

end CoolLang
