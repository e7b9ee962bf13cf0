import CoolLang.Proofs.Inference.Frame
import CoolLang.Proofs.Program.Shape
import CoolLang.Proofs.Typing.Independence
import CoolLang.Proofs.Typing.Rules

/-!
What a survey finds nothing wrong with is well typed.
-/

namespace CoolLang

/-- What is paired with one of many. -/
theorem exists_of_mem_right {α β : Type} {related : α → β → Prop} {items : List α} {others : List β} {other : β}
    (all : List.Forall₂ related items others) (member : other ∈ others) : ∃ item ∈ items, related item other := by
  induction all with
  | nil => cases member
  | cons first _ ih =>
      rcases List.mem_cons.mp member with rfl | member
      · exact ⟨_, List.mem_cons_self, first⟩
      · obtain ⟨item, isItem, isRelated⟩ := ih member
        exact ⟨item, List.mem_cons_of_mem _ isItem, isRelated⟩

/-! ### Clean surveys -/

namespace Survey

variable {α β : Type} {hierarchy : Hierarchy}

/-- Whether a survey that finds nothing wrong comes to such a value. -/
def Assures (hierarchy : Hierarchy) (survey : Survey α) (property : α → Prop) : Prop :=
  survey.diagnostics hierarchy = [] → property survey.value

namespace Assures

variable {property : α → Prop} {property' : β → Prop}

theorem pure {value : α} (holds : property value) : (Pure.pure value : Survey α).Assures hierarchy property :=
  fun _ => holds

theorem bind {survey : Survey α} {next : α → Survey β} (assures : survey.Assures hierarchy property)
    (assures' : ∀ value, property value → (next value).Assures hierarchy property') :
    (survey >>= next).Assures hierarchy property' := by
  intro clean
  rw [diagnostics_bind, List.append_eq_nil_iff] at clean
  exact assures' _ (assures clean.1) clean.2

theorem fault {position : Position} {problem : Problem} {next : Unit → Survey α} :
    (Survey.fault position problem >>= next).Assures hierarchy property :=
  nofun

theorem flow {target : Target} {type expected : TypeId} {position : Position} :
    (Survey.flow target type expected position).Assures hierarchy
      fun _ => hierarchy.conforms type expected = true := by
  intro clean
  by_contra differs
  have found : (Survey.flow target type expected position).diagnostics hierarchy =
      [⟨position, .incompatibleTypes (hierarchy.name type) (hierarchy.name expected)⟩] :=
    (List.append_nil _).trans (if_neg differs)
  exact nomatch found.symm.trans clean

end Assures

end Survey

/-- How declarations appear in a tree where inference has changed them. -/
def ScopeTree.Shows (tree : ScopeTree) (declarations : Declarations) : Prop :=
  ∀ entry ∈ declarations, List.Forall₂ Variable.Frames entry.2 (tree.slots entry.1)

namespace ScopeTree

variable {tree : ScopeTree} {one two later : Declarations} {entry : ScopeId × List Variable}

theorem Shows.append (shows : tree.Shows (one ++ two)) : tree.Shows one ∧ tree.Shows two :=
  List.forall_mem_append.mp shows

theorem Shows.cons (shows : tree.Shows (entry :: later)) :
    List.Forall₂ Variable.Frames entry.2 (tree.slots entry.1) ∧ tree.Shows later :=
  List.forall_mem_cons.mp shows

end ScopeTree

theorem Hierarchy.IsClass.resolveIn_self {hierarchy : Hierarchy} {type : TypeId} (isClass : hierarchy.IsClass type)
    (current : TypeId) : type.resolveIn current = type :=
  if_neg (TypeId.ne_selfType_of_isConcrete isClass.concrete)

/-- What a name stands for is a class inside a class, or a type that is yet to be inferred. -/
theorem Hierarchy.IsClass.resolveIn {hierarchy : Hierarchy} {name : String} {type current : TypeId}
    (isClass : hierarchy.IsClass current) (names : hierarchy.find? name = some type) (known : type ≠ .autoType) :
    hierarchy.IsClass (type.resolveIn current) := by
  unfold TypeId.resolveIn
  split
  · exact isClass
  · rename_i notSelf
    obtain ⟨isKnown, notError, _⟩ := find?_known names
    refine ⟨?_, isKnown⟩
    simp only [TypeId.isConcrete, Bool.and_eq_true, bne_iff_ne]
    exact ⟨⟨notSelf, known⟩, notError⟩

/-- A hierarchy in which the types of all signatures are classes, with a tree in which inferred variables have
classes. -/
structure Hierarchy.Resolves (hierarchy : Hierarchy) (tree : ScopeTree) : Prop where
  rooted : hierarchy.Rooted
  isSealed : hierarchy.Sealed
  params : ∀ owner, ∀ method ∈ (hierarchy.info owner).methods, ∀ param ∈ method.params, hierarchy.IsClass param.type
  results : ∀ owner, ∀ method ∈ (hierarchy.info owner).methods, ∀ receiver,
    hierarchy.IsClass receiver → hierarchy.IsClass (method.result.type.resolveIn receiver)
  inferred : ∀ id, (tree.variableAt id).auto = true → hierarchy.IsClass (tree.variableAt id).type

/-- A variable has the type that it is declared with, or the class that has been inferred for it. -/
theorem Hierarchy.Resolves.shown {hierarchy : Hierarchy} {tree : ScopeTree} (resolves : hierarchy.Resolves tree)
    {id : VariableId} {name : String} {type : TypeId}
    (frames : (Variable.declared name type).Frames (tree.variableAt id)) :
    type = .autoType ∧ hierarchy.IsClass (tree.variableAt id).type ∨
      type ≠ .autoType ∧ (tree.variableAt id).type = type := by
  by_cases isAuto : type = .autoType
  · refine Or.inl ⟨isAuto, resolves.inferred id ?_⟩
    rw [frames.auto, isAuto]
    rfl
  · exact Or.inr ⟨isAuto, congrArg Variable.type (frames.eq_of_ne_autoType isAuto)⟩

namespace Site

/-- The names in sight at a site, with their types as they are meant there. -/
def sight (site : Site) : Sight :=
  site.env.map fun info => (info.name, site.resolveSelf info.type)

/-- A site over a tree in which the types of all declarations, and of those in sight, are known. Around it the same
names stand for types as where the variables have been declared. -/
structure Settled (site : Site) (around : Surroundings) (tree : ScopeTree) : Prop where
  isTree : site.tree = some tree
  names : around.hierarchy.find? = site.hierarchy.find?
  current : around.current = site.current
  resolves : site.hierarchy.Resolves tree
  isClass : site.hierarchy.IsClass site.current
  seen : ∀ entry ∈ site.sight, site.hierarchy.IsClass entry.2

theorem Settled.rooted {site : Site} {around : Surroundings} {tree : ScopeTree} (settled : site.Settled around tree) :
    site.hierarchy.Rooted :=
  settled.resolves.rooted

variable {site : Site} {around : Surroundings} {tree : ScopeTree}

/-! ### Names -/

theorem lookup_sight {name : String} {info : Variable} (found : site.lookUp? name = some info) :
    site.sight.lookup name = some (site.resolveSelf info.type) := by
  unfold lookUp? at found
  unfold sight
  generalize site.env = env at found ⊢
  induction env with
  | nil => cases found
  | cons first env ih =>
      rw [List.find?_cons] at found
      rw [List.map_cons, List.lookup_cons]
      cases isFirst : first.name == name with
      | true =>
          rw [isFirst] at found
          rw [beq_iff_eq.mpr (beq_iff_eq.mp isFirst).symm, Option.some.inj found]
      | false =>
          rw [isFirst] at found
          rw [beq_eq_false_iff_ne.mpr (beq_eq_false_iff_ne.mp isFirst).symm]
          exact ih found

theorem mem_sight_of_lookup {sight : Sight} {name : String} {type : TypeId}
    (found : sight.lookup name = some type) : (name, type) ∈ sight := by
  induction sight with
  | nil => cases found
  | cons first sight ih =>
      rw [List.lookup_cons] at found
      split at found
      · rename_i isFirst
        obtain rfl := Option.some.inj found
        obtain rfl := beq_iff_eq.mp isFirst
        exact List.mem_cons_self
      · exact List.mem_cons_of_mem _ (ih found)

/-! ### Steps -/

section

open Survey

theorem assures_typeOfName (name : String) (position : Position) :
    (site.typeOfName name position).Assures site.hierarchy fun type => site.sight.lookup name = some type := by
  unfold typeOfName
  cases isSeen : site.lookUp? name with
  | none => exact .fault
  | some info => exact .pure (lookup_sight isSeen)

theorem assures_surveyTarget (target : Ident) (type : TypeId) (position : Position) :
    (site.surveyTarget target type position).Assures site.hierarchy fun _ => target.name ≠ "self" ∧
      ∃ expected, site.sight.lookup target.name = some expected ∧ site.hierarchy.conforms type expected = true := by
  unfold surveyTarget
  split
  · exact nofun
  · rename_i notSelf
    cases isSeen : site.lookUp? target.name with
    | none => exact nofun
    | some info => exact fun clean => ⟨notSelf, _, lookup_sight isSeen, Assures.flow clean⟩

theorem assures_dispatchType (receiver : TypeId) (written : Ident) :
    (site.dispatchType receiver (some written)).Assures site.hierarchy fun type =>
      site.hierarchy.find? written.name = some type ∧ site.hierarchy.IsClass type ∧
        site.hierarchy.conforms receiver type = true := by
  unfold dispatchType Hierarchy.get
  dsimp only
  cases names : site.hierarchy.find? written.name with
  | none => exact .fault
  | some type =>
      dsimp only
      split
      · rename_i concrete
        exact Assures.flow.bind fun _ conforms =>
          .pure ⟨rfl, ⟨concrete, (Hierarchy.find?_known names).1⟩, conforms⟩
      · exact .fault

theorem assures_callee {owner : TypeId} (isClass : site.hierarchy.IsClass owner) (method : Ident) (args : Nat) :
    (site.callee owner method args).Assures site.hierarchy fun callee => ∃ definer known,
      site.hierarchy.method? owner method.name = some (definer, known) ∧ known.params.length = args ∧
        callee = .inl known := by
  unfold callee
  rw [isClass.concrete, Bool.not_true, if_neg Bool.false_ne_true]
  cases isFound : site.hierarchy.method? owner method.name with
  | none => exact .fault
  | some found =>
      dsimp only
      split
      · exact .pure ⟨found.1, found.2, rfl, ‹_›, rfl⟩
      · exact .fault

theorem assures_bindingType (written : Option Ident) :
    (site.bindingType written).Assures site.hierarchy fun _ =>
      ∃ declared, site.hierarchy.Writes written declared := by
  cases written with
  | none => exact .pure ⟨.autoType, rfl⟩
  | some written =>
      unfold bindingType Hierarchy.get
      dsimp only
      cases names : site.hierarchy.find? written.name with
      | none => exact .fault
      | some declared => exact .pure ⟨declared, names⟩

theorem assures_branchType (seen : List TypeId) (written : Ident) :
    (site.branchType seen written).Assures site.hierarchy fun result => ∃ named,
      site.hierarchy.find? written.name = some named ∧ site.hierarchy.IsClass named ∧ named ∉ seen ∧
        result = (named, seen ++ [named]) := by
  unfold branchType Hierarchy.get
  cases names : site.hierarchy.find? written.name with
  | none => exact .fault
  | some named =>
      dsimp only
      split
      · exact .fault
      · rename_i concrete
        split
        · exact .fault
        · rw [Bool.not_eq_true, Bool.not_eq_false'] at concrete
          exact .pure ⟨named, rfl, ⟨concrete, (Hierarchy.find?_known names).1⟩, ‹_›, rfl⟩

theorem assures_newType (isClass : site.hierarchy.IsClass site.current) (written : Ident) :
    (site.newType written).Assures site.hierarchy fun type => ∃ named,
      site.hierarchy.find? written.name = some named ∧
        site.hierarchy.IsClass (named.resolveIn site.current) ∧ type = named.resolveIn site.current := by
  unfold newType Hierarchy.get
  cases names : site.hierarchy.find? written.name with
  | none => exact .fault
  | some named =>
      dsimp only
      split
      · rename_i isSelf
        subst isSelf
        exact .pure ⟨.selfType, rfl, isClass, rfl⟩
      · rename_i notSelf
        split
        · exact .fault
        · rename_i notAuto
          exact .pure ⟨named, rfl, isClass.resolveIn names notAuto, (if_neg notSelf).symm⟩

end

/-! ### Scopes -/

section

variable (settled : site.Settled around tree)
include settled

theorem Settled.slots_eq (place : Nat) (written : List Variable) :
    site.slots place written = tree.slots (tree.child site.scope place) := by
  unfold slots child
  rw [settled.isTree]
  rfl

theorem Settled.sight_inside (place : Nat) (written : List Variable) : (site.inside place written).sight =
    (tree.slots (tree.child site.scope place)).map (fun info => (info.name, site.resolveSelf info.type)) ++
      site.sight := by
  unfold sight inside
  rw [settled.slots_eq, List.map_append]

theorem Settled.inside (place : Nat) (written : List Variable)
    (shown : ∀ info ∈ tree.slots (tree.child site.scope place), site.hierarchy.IsClass info.type) :
    (site.inside place written).Settled around tree := by
  refine { settled with seen := ?_ }
  rw [settled.sight_inside]
  refine List.forall_mem_append.mpr ⟨fun entry member => ?_, settled.seen⟩
  obtain ⟨info, isShown, rfl⟩ := List.mem_map.mp member
  have isClass := shown info isShown
  change site.hierarchy.IsClass (info.type.resolveIn site.current)
  rwa [isClass.resolveIn_self]

/-- A declaration appears with the type that it names, or with the class that has been inferred for it. -/
theorem Settled.reads {scope : ScopeId} {info : Variable} {name : String} {declared : TypeId}
    (member : info ∈ tree.slots scope)
    (frames : (Variable.declared name (declared.resolveIn site.current)).Frames info)
    (known : declared ≠ .autoType → site.hierarchy.IsClass (declared.resolveIn site.current)) :
    site.hierarchy.Reads site.current declared info.type := by
  obtain ⟨id, _, rfl⟩ := List.mem_map.mp member
  rcases settled.resolves.shown frames with ⟨isAuto, isClass⟩ | ⟨notAuto, same⟩
  · refine ⟨isClass, fun other => absurd isAuto ?_⟩
    exact TypeId.ne_autoType_of_isConcrete (known other).concrete
  · have other : declared ≠ .autoType := by
      rintro rfl
      exact notAuto rfl
    exact ⟨same ▸ known other, fun _ => same⟩

theorem Settled.shows_binding {scope : ScopeId} {name : Ident} {written : Option Ident} {declared : TypeId}
    (writes : site.hierarchy.Writes written declared)
    (shown : List.Forall₂ Variable.Frames [around.bindingVariable name written] (tree.slots scope)) :
    ∃ info, tree.slots scope = [info] ∧ info.name = name.name ∧
      site.hierarchy.Reads site.current declared info.type := by
  obtain ⟨info, isShown, frames⟩ : ∃ info, tree.slots scope = [info] ∧
      (around.bindingVariable name written).Frames info := by
    generalize tree.slots scope = infos at shown
    cases shown with
    | cons first rest =>
        cases rest
        exact ⟨_, rfl, first⟩
  have isType : Inference.bindingType around.hierarchy around.current written = declared.resolveIn site.current := by
    cases written with
    | none =>
        obtain rfl : declared = .autoType := writes
        rfl
    | some written =>
        have names : site.hierarchy.find? written.name = some declared := writes
        rw [Inference.bindingType, settled.names, names, settled.current]
        rfl
  have frames : (Variable.declared name.name (declared.resolveIn site.current)).Frames info := isType ▸ frames
  refine ⟨info, isShown, frames.name, settled.reads (isShown ▸ List.mem_singleton_self info) frames fun known => ?_⟩
  cases written with
  | none => exact absurd writes known
  | some written => exact settled.isClass.resolveIn writes known

theorem Settled.shows_branch {scope : ScopeId} {name written : Ident} {named : TypeId}
    (names : site.hierarchy.find? written.name = some named) (isClass : site.hierarchy.IsClass named)
    (shown : List.Forall₂ Variable.Frames [around.branchVariable name written] (tree.slots scope)) :
    tree.slots scope = [.declared name.name named] := by
  have isVariable : around.branchVariable name written = .declared name.name named := by
    unfold Surroundings.branchVariable Inference.castType TypeId.expected?
    rw [settled.names, names, Option.getD_some, if_pos isClass.concrete]
    rfl
  rw [isVariable] at shown
  generalize tree.slots scope = infos at shown
  cases shown with
  | cons first rest =>
      cases rest
      rw [first.eq_of_ne_autoType (TypeId.ne_autoType_of_isConcrete isClass.concrete)]

end

/-! ### Expressions -/

/-- Whether branches join so far, if there are any. -/
def Joined (hierarchy : Hierarchy) (types : List TypeId) : Option TypeId → Prop
  | none => types = []
  | some join => hierarchy.Joins types join

/-- An operand that conforms to a primitive type has that type. -/
theorem Settled.operand (settled : site.Settled around tree) {expr : Expr} {type primitive : TypeId}
    (typed : HasType site.hierarchy site.current site.sight expr type) (member : primitive ∈ primitives)
    (conforms : site.hierarchy.conforms type primitive = true) :
    HasType site.hierarchy site.current site.sight expr primitive := by
  have isClass : site.hierarchy.IsClass primitive := by
    have all : ∀ type ∈ primitives, type.isConcrete = true ∧ type.index < 8 := by decide
    exact settled.rooted.isClass_builtin (all primitive member).1 (all primitive member).2
  have conforms := (settled.rooted.conforms_iff (typed.notes settled.rooted).2 isClass).mp conforms
  exact settled.resolves.isSealed.eq_of_conforms conforms member ▸ typed

theorem Settled.hasType_binary (settled : site.Settled around tree) {position : Position} {operator : Operator}
    {left right : Expr} {one two : TypeId} (ofLeft : HasType site.hierarchy site.current site.sight left one)
    (ofRight : HasType site.hierarchy site.current site.sight right two)
    (admitted : site.admits operator one two = true) :
    HasType site.hierarchy site.current site.sight
      (.binary ⟨position, some operator.resultType⟩ operator left right) operator.resultType := by
  by_cases equality : operator = .equal
  · subst equality
    refine .equal ofLeft ofRight ?_
    have isLeft := (ofLeft.notes settled.rooted).2
    have isRight := (ofRight.notes settled.rooted).2
    have same : ∀ primitive ∈ primitives,
        (site.hierarchy.conforms one primitive == site.hierarchy.conforms two primitive) = true := by
      change site.comparable one two = true at admitted
      rw [Surroundings.comparable, isLeft.concrete, isRight.concrete] at admitted
      exact List.all_eq_true.mp admitted
    rintro (isPrimitive | isPrimitive)
    · have conforms := (settled.rooted.conforms_iff isLeft isLeft).mpr isLeft.conforms_self
      have conforms' := (beq_iff_eq.mp (same one isPrimitive)).symm.trans conforms
      have conforms' := (settled.rooted.conforms_iff isRight isLeft).mp conforms'
      exact (settled.resolves.isSealed.eq_of_conforms conforms' isPrimitive).symm
    · have conforms := (settled.rooted.conforms_iff isRight isRight).mpr isRight.conforms_self
      have conforms' := (beq_iff_eq.mp (same two isPrimitive)).trans conforms
      have conforms' := (settled.rooted.conforms_iff isLeft isRight).mp conforms'
      exact settled.resolves.isSealed.eq_of_conforms conforms' isPrimitive
  · have both : site.hierarchy.conforms one .int = true ∧ site.hierarchy.conforms two .int = true := by
      unfold Surroundings.admits at admitted
      split at admitted
      · exact absurd rfl equality
      · exact Bool.and_eq_true_iff.mp admitted
    exact .binary equality (settled.operand ofLeft (by decide) both.1) (settled.operand ofRight (by decide) both.2)

mutual

theorem survey_hasType (site : Site) (settled : site.Settled around tree) (place : Nat) : (expr : Expr) →
    expr.Complete → tree.Shows (around.declarations tree site.scope place expr) →
    (site.survey place expr).Assures site.hierarchy fun result =>
      HasType site.hierarchy site.current site.sight result.1 result.2
  | .integer .., _, _ => .pure .integer
  | .string .., _, _ => .pure .string
  | .boolean .., _, _ => .pure .boolean
  | .identifier note name, _, _ => by
      rw [survey]
      exact (assures_typeOfName name note.position).bind fun type isSeen =>
        .pure (.identifier isSeen (settled.seen _ (mem_sight_of_lookup isSeen)))
  | .assign note target value, complete, shows => by
      rw [Expr.Complete] at complete
      rw [Surroundings.declarations] at shows
      rw [survey]
      exact (survey_hasType site settled place value complete shows).bind fun ⟨_, type⟩ typed =>
        (assures_surveyTarget target type _).bind fun _ ⟨notSelf, _, isSeen, conforms⟩ =>
        .pure (.assign notSelf isSeen typed ((settled.rooted.conforms_iff (typed.notes settled.rooted).2
          (settled.seen _ (mem_sight_of_lookup isSeen))).mp conforms))
  | .dispatch note receiver cast method args, complete, shows => by
      rw [Expr.Complete] at complete
      rw [Surroundings.declarations] at shows
      rw [survey]
      refine (surveyReceiver_hasReceiver site settled place receiver complete.1 shows.append.1).bind
        fun ⟨receiver', type⟩ ofReceiver => ?_
      have isClass := ofReceiver.isClass settled.rooted settled.isClass
      have calling {owner definer : TypeId} {known : Method} (isOwner : site.hierarchy.IsClass owner)
          (isFound : site.hierarchy.method? owner method.name = some (definer, known)) :
          site.hierarchy.Calls owner method.name known ∧
            site.hierarchy.IsClass (known.result.type.resolveIn type) :=
        ⟨settled.rooted.calls_of_method? isOwner isFound,
          settled.resolves.results definer known (Hierarchy.method?_mem isFound).2.2 type isClass⟩
      have arguments {owner definer : TypeId} {known : Method} (many : known.params.length = args.length)
          (isFound : site.hierarchy.method? owner method.name = some (definer, known)) :=
        surveyArgs_hasArgs site settled _ args complete.2 shows.append.2 known.params
          (settled.resolves.params definer known (Hierarchy.method?_mem isFound).2.2) many
      cases cast with
      | none =>
          have same : (site.dispatchType type none).Assures site.hierarchy (· = type) := .pure rfl
          refine same.bind fun owner isOwner => ?_
          subst isOwner
          refine (assures_callee isClass method args.length).bind fun callee ⟨_, known, isFound, many, isCallee⟩ => ?_
          subst isCallee
          obtain ⟨calls, isResult⟩ := calling isClass isFound
          exact (arguments many isFound).bind fun _ ofArgs => .pure (.dispatch ofReceiver calls ofArgs isResult)
      | some written =>
          refine (assures_dispatchType type written).bind fun owner ⟨names, isOwner, conforms⟩ =>
            (assures_callee isOwner method args.length).bind fun callee ⟨_, known, isFound, many, isCallee⟩ => ?_
          subst isCallee
          obtain ⟨calls, isResult⟩ := calling isOwner isFound
          have conforms := (settled.rooted.conforms_iff isClass isOwner).mp conforms
          exact (arguments many isFound).bind fun _ ofArgs =>
            .pure (.static ofReceiver names conforms calls ofArgs isResult)
  | .cond note test yes no, complete, shows => by
      rw [Expr.Complete] at complete
      rw [Surroundings.declarations] at shows
      rw [survey]
      obtain ⟨showsTest, shows⟩ := shows.append
      exact (survey_hasType site settled place test complete.1 showsTest).bind fun _ ofTest =>
        Survey.Assures.flow.bind fun _ isTest =>
        (survey_hasType site settled _ yes complete.2.1 shows.append.1).bind fun _ ofYes =>
        (survey_hasType site settled _ no complete.2.2 shows.append.2).bind fun _ ofNo =>
        .pure (.cond (settled.operand ofTest (by decide) isTest) ofYes ofNo
          (settled.rooted.joins_union (ofYes.notes settled.rooted).2 (ofNo.notes settled.rooted).2))
  | .loop note test body, complete, shows => by
      rw [Expr.Complete] at complete
      rw [Surroundings.declarations] at shows
      rw [survey]
      exact (survey_hasType site settled place test complete.1 shows.append.1).bind fun _ ofTest =>
        Survey.Assures.flow.bind fun _ isTest =>
        (survey_hasType site settled _ body complete.2 shows.append.2).bind fun _ ofBody =>
        .pure (.loop (settled.operand ofTest (by decide) isTest) ofBody)
  | .block note body, complete, shows => by
      rw [Expr.Complete] at complete
      rw [Surroundings.declarations] at shows
      rw [survey]
      obtain ⟨shown, shows⟩ := shows.cons
      have empty := List.forall₂_nil_left_iff.mp shown
      have inner := settled.inside place [] (empty ▸ nofun)
      have sight := settled.sight_inside place []
      rw [empty, List.map_nil, List.nil_append] at sight
      rw [← scope_inside settled.isTree []] at shows
      refine (surveyAll_hasBlock (site.inside place []) inner 0 .object body complete.1 complete.2 shows).bind
        fun _ ofBody => .pure ?_
      exact .block (sight ▸ ofBody)
  | .letIn note bindings body, complete, shows => by
      rw [Expr.Complete] at complete
      rw [Surroundings.declarations] at shows
      rw [survey]
      exact (surveyBindings_hasLet site settled place (fun inner settled place shows =>
        survey_hasType inner settled place body complete.2 shows) bindings complete.1 shows).bind
        fun _ ofBindings => .pure (.letIn ofBindings)
  | .caseOf note scrutinee branches, complete, shows => by
      rw [Expr.Complete] at complete
      rw [Surroundings.declarations] at shows
      rw [survey]
      refine (survey_hasType site settled place scrutinee complete.1 shows.append.1).bind fun _ ofScrutinee =>
        (surveyBranches_hasBranches site settled _ [] List.nodup_nil none [] rfl branches complete.2.2
          shows.append.2).bind
        fun ⟨branches', join⟩ ⟨declared, types, ofBranches, distinct, joined, exists'⟩ => .pure ?_
      cases join with
      | none => exact absurd joined (exists' complete.2.1)
      | some join => exact .caseOf ofScrutinee ofBranches distinct joined
  | .new note written, _, _ => by
      rw [survey]
      refine (assures_newType settled.isClass written).bind fun type ⟨named, names, isClass, isType⟩ => ?_
      subst isType
      exact .pure (.new names isClass)
  | .isVoid note operand, complete, shows => by
      rw [Expr.Complete] at complete
      rw [Surroundings.declarations] at shows
      rw [survey]
      exact (survey_hasType site settled place operand complete shows).bind fun _ typed => .pure (.isVoid typed)
  | .not note operand, complete, shows => by
      rw [Expr.Complete] at complete
      rw [Surroundings.declarations] at shows
      rw [survey]
      exact (survey_hasType site settled place operand complete shows).bind fun _ typed =>
        Survey.Assures.flow.bind fun _ conforms => .pure (.not (settled.operand typed (by decide) conforms))
  | .complement note operand, complete, shows => by
      rw [Expr.Complete] at complete
      rw [Surroundings.declarations] at shows
      rw [survey]
      exact (survey_hasType site settled place operand complete shows).bind fun _ typed =>
        Survey.Assures.flow.bind fun _ conforms => .pure (.complement (settled.operand typed (by decide) conforms))
  | .binary note operator left right, complete, shows => by
      rw [Expr.Complete] at complete
      rw [Surroundings.declarations] at shows
      rw [survey]
      refine (survey_hasType site settled place left complete.1 shows.append.1).bind fun ⟨left', one⟩ ofLeft =>
        (survey_hasType site settled _ right complete.2 shows.append.2).bind fun ⟨right', two⟩ ofRight => ?_
      dsimp only
      split
      · exact .fault
      · rename_i admitted
        exact .pure (settled.hasType_binary ofLeft ofRight (by simpa using admitted))

theorem surveyReceiver_hasReceiver (site : Site) (settled : site.Settled around tree) (place : Nat) :
    (receiver : Option Expr) → Expr.CompleteOption receiver →
    tree.Shows (around.declarationsOption tree site.scope place receiver) →
    (site.surveyReceiver place receiver).Assures site.hierarchy fun result =>
      HasReceiver site.hierarchy site.current site.sight result.1 result.2
  | none, _, _ => .pure .self
  | some receiver, complete, shows => by
      rw [Expr.CompleteOption] at complete
      rw [Surroundings.declarationsOption] at shows
      rw [surveyReceiver]
      exact (survey_hasType site settled place receiver complete shows).bind fun _ typed => .pure (.written typed)

theorem surveyArgs_hasArgs (site : Site) (settled : site.Settled around tree) (place : Nat) : (args : List Expr) →
    Expr.CompleteAll args → tree.Shows (around.declarationsAll tree site.scope place args) →
    ∀ params : List Variable, (∀ param ∈ params, site.hierarchy.IsClass param.type) → params.length = args.length →
    (site.surveyArgs place args params).Assures site.hierarchy fun result =>
      HasArgs site.hierarchy site.current site.sight result (params.map Variable.type)
  | [], _, _ => by
      intro params _ many
      rw [List.length_eq_zero_iff.mp many]
      exact .pure .nil
  | arg :: args, complete, shows => by
      intro params areClasses many
      obtain _ | ⟨param, params⟩ := params
      · cases many
      rw [Expr.CompleteAll] at complete
      rw [Surroundings.declarationsAll] at shows
      obtain ⟨isClass, areClasses⟩ := List.forall_mem_cons.mp areClasses
      rw [surveyArgs]
      exact (survey_hasType site settled place arg complete.1 shows.append.1).bind fun _ ofArg =>
        Survey.Assures.flow.bind fun _ conforms =>
        (surveyArgs_hasArgs site settled _ args complete.2 shows.append.2 params areClasses
          (Nat.succ.inj many)).bind fun _ ofArgs =>
        .pure (.cons ofArg ((settled.rooted.conforms_iff (ofArg.notes settled.rooted).2 isClass).mp conforms) ofArgs)

theorem surveyAll_hasBlock (site : Site) (settled : site.Settled around tree) (place : Nat) (last : TypeId) :
    (exprs : List Expr) → exprs ≠ [] → Expr.CompleteAll exprs →
    tree.Shows (around.declarationsAll tree site.scope place exprs) →
    (site.surveyAll place last exprs).Assures site.hierarchy fun result =>
      HasBlock site.hierarchy site.current site.sight result.1 result.2
  | [], exists', _, _ => absurd rfl exists'
  | [expr], _, complete, shows => by
      rw [Expr.CompleteAll] at complete
      rw [Surroundings.declarationsAll] at shows
      simp only [surveyAll]
      exact (survey_hasType site settled place expr complete.1 shows.append.1).bind fun _ ofExpr =>
        .pure (.last ofExpr)
  | expr :: next :: exprs, _, complete, shows => by
      rw [Expr.CompleteAll] at complete
      rw [Surroundings.declarationsAll] at shows
      rw [surveyAll]
      refine (survey_hasType site settled place expr complete.1 shows.append.1).bind fun _ ofExpr =>
        (surveyAll_hasBlock site settled _ _ (next :: exprs) (List.cons_ne_nil _ _) complete.2 shows.append.2).bind
        fun ⟨exprs', _⟩ ofExprs => ?_
      obtain _ | ⟨next', exprs'⟩ := exprs'
      · cases ofExprs
      · exact .pure (.cons ofExpr ofExprs)

/-- The body is typed at any site inside. -/
theorem surveyBindings_hasLet (site : Site) (settled : site.Settled around tree) (place : Nat)
    {body : Site → Nat → Survey (Expr × TypeId)} {ofBody : ScopeId → Nat → Declarations}
    (typed : ∀ inner : Site, inner.Settled around tree → ∀ place, tree.Shows (ofBody inner.scope place) →
      (body inner place).Assures inner.hierarchy fun result =>
        HasType inner.hierarchy inner.current inner.sight result.1 result.2) :
    (bindings : List (Binding Expr)) → Expr.CompleteBindings bindings →
    tree.Shows (around.declarationsBindings tree site.scope place bindings ofBody) →
    (site.surveyBindings place bindings body).Assures site.hierarchy fun result =>
      HasLet site.hierarchy site.current site.sight result.1 result.2.1 result.2.2
  | [], _, shows => by
      rw [Surroundings.declarationsBindings] at shows
      rw [surveyBindings]
      exact (typed site settled place shows).bind fun _ ofBody => .pure (.body ofBody)
  | ⟨name, written, init⟩ :: bindings, complete, shows => by
      rw [Expr.CompleteBindings] at complete
      rw [Surroundings.declarationsBindings] at shows
      obtain ⟨showsInit, shows⟩ := shows.append
      obtain ⟨shown, shows⟩ := shows.cons
      rw [surveyBindings]
      refine (assures_bindingType written).bind fun type ⟨declared, writes⟩ => ?_
      obtain ⟨info, slots, isNamed, reads⟩ := settled.shows_binding writes shown
      have sight : (site.inside (place + (Expr.nestsOption init).length) [.declared name.name type]).sight =
          (name.name, info.type) :: site.sight := by
        have isType : site.resolveSelf info.type = info.type := reads.isClass.resolveIn_self _
        rw [settled.sight_inside, slots, List.map_singleton, isNamed, isType]
        rfl
      have inner := settled.inside (place + (Expr.nestsOption init).length) [.declared name.name type]
        (slots ▸ List.forall_mem_singleton.mpr reads.isClass)
      rw [← scope_inside settled.isTree [.declared name.name type]] at shows
      have rest := surveyBindings_hasLet _ inner 0 typed bindings complete.2 shows
      refine (surveyInit_hasInit site settled place init complete.1 showsInit).bind fun init' ofInit => ?_
      dsimp only
      rw [settled.slots_eq, slots, List.headD_cons]
      cases init' with
      | none =>
          refine Survey.Assures.bind rest fun _ ofRest => .pure ?_
          exact .cons writes reads .none (sight ▸ ofRest)
      | some typed =>
          have ofInit := ofInit typed rfl
          refine Survey.Assures.flow.bind fun _ conforms => rest.bind fun _ ofRest => .pure ?_
          have conforms := (settled.rooted.conforms_iff (ofInit.notes settled.rooted).2 reads.isClass).mp conforms
          exact .cons writes reads (.some ofInit conforms) (sight ▸ ofRest)

theorem surveyInit_hasInit (site : Site) (settled : site.Settled around tree) (place : Nat) :
    (init : Option Expr) → Expr.CompleteOption init →
    tree.Shows (around.declarationsOption tree site.scope place init) →
    (site.surveyInit place init).Assures site.hierarchy fun result => ∀ typed ∈ result,
      HasType site.hierarchy site.current site.sight typed.1 typed.2
  | none, _, _ => .pure nofun
  | some init, complete, shows => by
      rw [Expr.CompleteOption] at complete
      rw [Surroundings.declarationsOption] at shows
      rw [surveyInit]
      exact (survey_hasType site settled place init complete shows).bind fun _ typed =>
        .pure fun _ same => Option.some.inj same ▸ typed

theorem surveyBranches_hasBranches (site : Site) (settled : site.Settled around tree) (place : Nat)
    (seen : List TypeId) (distinct : seen.Nodup) (join : Option TypeId) (before : List TypeId)
    (joined : Joined site.hierarchy before join) : (branches : List (Branch Expr)) → Expr.CompleteBranches branches →
    tree.Shows (around.declarationsBranches tree site.scope place branches) →
    (site.surveyBranches place seen join branches).Assures site.hierarchy fun result => ∃ declared types,
      HasBranches site.hierarchy site.current site.sight result.1 declared types ∧ (seen ++ declared).Nodup ∧
        Joined site.hierarchy (before ++ types) result.2 ∧ (branches ≠ [] → types ≠ [])
  | [], _, _ => .pure
      ⟨[], [], .nil, (List.append_nil seen).symm ▸ distinct, (List.append_nil before).symm ▸ joined, absurd rfl⟩
  | ⟨name, written, body⟩ :: branches, complete, shows => by
      rw [Expr.CompleteBranches] at complete
      rw [Surroundings.declarationsBranches] at shows
      obtain ⟨shown, shows⟩ := shows.cons
      rw [surveyBranches]
      refine (assures_branchType seen written).bind fun result ⟨named, names, isClass, isNew, isResult⟩ => ?_
      subst isResult
      have slots := settled.shows_branch names isClass shown
      have inner := settled.inside place [.declared name.name named]
        (slots ▸ List.forall_mem_singleton.mpr isClass)
      have sight : (site.inside place [.declared name.name named]).sight = (name.name, named) :: site.sight := by
        have isType : site.resolveSelf named = named := isClass.resolveIn_self _
        rw [settled.sight_inside, slots]
        exact congrArg (fun type => (name.name, type) :: site.sight) isType
      rw [← scope_inside settled.isTree [.declared name.name named]] at shows
      refine (survey_hasType (site.inside place [.declared name.name named]) inner 0 body complete.1
        shows.append.1).bind fun ⟨body', type⟩ ofBody => ?_
      have isType := (ofBody.notes settled.rooted).2
      have joined' : Joined site.hierarchy (before ++ [type])
          (some (join.elim type fun join => site.hierarchy.union join type)) := by
        cases join with
        | none =>
            obtain rfl : before = [] := joined
            exact isType.joins_self
        | some join => exact settled.rooted.joins_concat joined isType
      refine (surveyBranches_hasBranches site settled (place + 1) (seen ++ [named]) ?_ _ _ joined' branches complete.2
        shows.append.2).bind fun ⟨branches', _⟩ ⟨declared, types, ofBranches, distinct, joins, _⟩ =>
          .pure ⟨named :: declared, type :: types, .cons names isClass ?_ ofBranches, ?_, ?_,
            fun _ => List.cons_ne_nil _ _⟩
      · exact List.nodup_append.mpr ⟨distinct, List.nodup_singleton _, fun old isOld new isNew' same =>
          isNew (List.mem_singleton.mp isNew' ▸ same ▸ isOld)⟩
      · exact sight ▸ ofBody
      · rwa [← List.append_cons] at distinct
      · rwa [← List.append_cons] at joins

end

end Site

end CoolLang
