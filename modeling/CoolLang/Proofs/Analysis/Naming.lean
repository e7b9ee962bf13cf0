import CoolLang.Analysis.Uses
import CoolLang.Proofs.Typing.Independence

/-!
Names and their binders. In a tree that has the scopes of an expression, and in them variables of the names that the
expression declares, each name means the variable of its binder. A survey of the expression gives it the type of that
variable, and reports it exactly if it has no binder (`Survey.Accounts`).
-/

namespace CoolLang

/-- Whether a name is reported of which nothing is known. -/
def Diagnostic.isUnknownVariable (fault : Diagnostic) : Bool :=
  match fault.problem with
  | .unknownVariable .. => true
  | _ => false

theorem HierarchyError.isUnknownVariable (error : HierarchyError) (position : Position) :
    Diagnostic.isUnknownVariable ⟨position, error.problem⟩ = false := by
  cases error <;> rfl

/-! ### Binders in a tree -/

namespace ScopeTree

variable {tree : ScopeTree} {scope : ScopeId} {name : String} {id : VariableId}

theorem name_of_local? (found : tree.local? scope name = some id) : (tree.variableAt id).name = name := by
  simpa using List.find?_some found

/-- A name means a variable of that name. -/
theorem name_of_find? (found : tree.find? scope name = some id) : (tree.variableAt id).name = name := by
  obtain ⟨_, _, isLocal⟩ := List.exists_of_findSome?_eq_some found
  exact name_of_local? isLocal

/-- A local is found by the first binder of its name. -/
theorem find?_locals (front ids : List VariableId) (name : String) :
    ids.find? (fun id => (tree.variableAt id).name == name) =
      ((((ids.map fun id => (tree.variableAt id).name).zipIdx front.length).map fun (name, place) =>
        (⟨name, scope, place⟩ : Binder)).find? fun binder => binder.name == name).bind
          fun binder => (front ++ ids)[binder.place]? := by
  induction ids generalizing front with
  | nil => rfl
  | cons id ids ih =>
      simp only [List.map_cons, List.zipIdx_cons, List.find?_cons]
      cases isFirst : (tree.variableAt id).name == name with
      | true => simp only [Option.bind_some, List.getElem?_append_right (Nat.le_refl _), Nat.sub_self,
          List.getElem?_cons_zero]
      | false =>
          have later := ih (front ++ [id])
          simp only [List.length_append, List.length_singleton, List.append_assoc, List.singleton_append] at later
          exact later

/-- In a scope that declares these names, a local is what the first binder of its name is bound to. -/
theorem local?_eq_bound {names : List String} (named : (tree.slots scope).map Variable.name = names) :
    tree.local? scope name =
      ((Binder.inScope scope names).find? fun binder => binder.name == name).bind tree.bound? := by
  have sameNames : (tree.locals scope).map (fun id => (tree.variableAt id).name) = names := by
    rw [← named, slots, List.map_map]
    rfl
  have found := @find?_locals tree scope [] (tree.locals scope) name
  rw [sameNames, List.length_nil, List.nil_append] at found
  rw [local?, found, Binder.inScope]
  generalize isBinder : List.find? _ _ = binder?
  cases binder? with
  | none => rfl
  | some binder =>
      obtain ⟨⟨_, _⟩, _, rfl⟩ := List.mem_map.mp (List.mem_of_find?_eq_some isBinder)
      rfl

/-- What is bound in a scope that declares these names is there. -/
theorem exists_bound {names : List String} (named : (tree.slots scope).map Variable.name = names) {binder : Binder}
    (member : binder ∈ Binder.inScope scope names) : ∃ id, tree.bound? binder = some id := by
  obtain ⟨⟨name, place⟩, isName, rfl⟩ := List.mem_map.mp member
  have inside := (List.mem_zipIdx isName).2.1
  rw [← named, List.length_map, slots, List.length_map] at inside
  simp only [Nat.zero_add] at inside
  exact ⟨_, List.getElem?_eq_getElem inside⟩

end ScopeTree

/-- The scope at a place of a site that fits a nest is a child of the scope of the site. -/
theorem Site.Fits.enter {site : Site} {tree : ScopeTree} {place : Nat} {inner : List Nest}
    (fits : site.Fits place [.scope inner]) (isTree : site.tree = some tree) :
    tree.child site.scope place ∈ tree.children site.scope ∧
      Nest.AllAt tree 0 inner (tree.children (tree.child site.scope place)) := by
  obtain ⟨ids, behind, left, all⟩ := fits tree isTree
  obtain _ | ⟨child, ids⟩ := ids
  · exact all.elim
  obtain ⟨_, inside, _⟩ := all
  obtain ⟨isNext, _⟩ := next_of_drop left
  have isChild := ScopeTree.child_of_getElem? isNext
  rw [isChild]
  exact ⟨List.mem_of_getElem? isNext, (Nest.At.eq_1 tree child inner ▸ inside)⟩

/-- Inside the scope at its place a site fits what is inside the nest. -/
theorem Site.Fits.inside {site : Site} {tree : ScopeTree} {place : Nat} {inner : List Nest}
    (fits : site.Fits place [.scope inner]) (isTree : site.tree = some tree) (written : List Variable) :
    (site.inside place written).Fits 0 inner := by
  intro other isOther
  obtain rfl := Option.some.inj (isTree.symm.trans isOther)
  exact ⟨_, [], (List.append_nil _).symm, by rw [scope_inside isTree]; exact (fits.enter isTree).2⟩

/-! ### Vantages -/

/-- Whether scopes of a tree have variables of the names that are declared in them. -/
def ScopeTree.Names (tree : ScopeTree) (declarations : Declarations) : Prop :=
  ∀ entry ∈ declarations, (tree.slots entry.1).map Variable.name = entry.2.map Variable.name

namespace ScopeTree

variable {tree : ScopeTree} {one two later : Declarations} {entry : ScopeId × List Variable}

theorem Names.append (names : tree.Names (one ++ two)) : tree.Names one ∧ tree.Names two :=
  List.forall_mem_append.mp names

theorem Names.cons (names : tree.Names (entry :: later)) :
    (tree.slots entry.1).map Variable.name = entry.2.map Variable.name ∧ tree.Names later :=
  List.forall_mem_cons.mp names

end ScopeTree

namespace Analysis

/-- A vantage at a site over the tree of an analysis. Each name means there what its binder is bound to. -/
structure Views (analysis : Analysis) (site : Site) (vantage : Vantage) : Prop where
  wellFormed : analysis.tree.WellFormed
  isTree : site.tree = some analysis.tree
  hierarchy : site.hierarchy = analysis.hierarchy
  current : vantage.current = site.current
  feature : vantage.feature = site.feature
  scope : vantage.scope = site.scope
  known : site.scope < analysis.tree.nodes.size
  sees : analysis.tree.Sees site.scope site.env
  bound : ∀ name, ∀ binder ∈ analysis.binder? vantage name, ∃ id, analysis.tree.bound? binder = some id
  means : ∀ name, analysis.tree.find? site.scope name = (analysis.binder? vantage name).bind analysis.tree.bound?

namespace Views

variable {analysis : Analysis} {site : Site} {vantage : Vantage} {place : Nat} {inner : List Nest}
  {names : List String}

theorem withFeature (views : analysis.Views site vantage) (name : String) :
    analysis.Views { site with feature := name } { vantage with feature := name } :=
  ⟨views.wellFormed, views.isTree, views.hierarchy, views.current, rfl, views.scope, views.known, views.sees,
    views.bound, views.means⟩

theorem inside (views : analysis.Views site vantage) (fits : site.Fits place [.scope inner]) (written : List Variable)
    (named : (analysis.tree.slots (analysis.tree.child site.scope place)).map Variable.name = names) :
    analysis.Views (site.inside place written) (vantage.inside analysis.tree place names) ∧
      (site.inside place written).Fits 0 inner := by
  obtain ⟨isChild, _⟩ := fits.enter views.isTree
  have wellFormed := views.wellFormed
  obtain ⟨known, isParent⟩ := wellFormed.children site.scope _ isChild
  have scope : (site.inside place written).scope = analysis.tree.child site.scope place :=
    Site.scope_inside views.isTree written
  have slots : site.slots place written = analysis.tree.slots (analysis.tree.child site.scope place) := by
    rw [Site.slots, Site.child, views.isTree]
    rfl
  have vantageScope : analysis.tree.child vantage.scope place = analysis.tree.child site.scope place := by
    rw [views.scope]
  have binder? (name : String) : analysis.binder? (vantage.inside analysis.tree place names) name =
      ((Binder.inScope (analysis.tree.child site.scope place) names).find? fun binder => binder.name == name).or
        (analysis.binder? vantage name) := by
    rw [Analysis.binder?, Analysis.binder?, Vantage.inside, vantageScope, List.find?_append, Option.or_assoc]
  constructor
  · refine ⟨wellFormed, views.isTree, views.hierarchy, views.current, views.feature, ?_, ?_, ?_,
      fun name binder member => ?_, fun name => ?_⟩
    · rw [scope]
      exact vantageScope
    · rw [scope]
      exact known
    · rw [scope, Site.inside, slots]
      exact views.sees.child wellFormed known isParent
    · rw [binder?] at member
      rcases Option.or_eq_some_iff.mp member with isInner | ⟨_, isOuter⟩
      · exact ScopeTree.exists_bound named (List.mem_of_find?_eq_some isInner)
      · exact views.bound name binder isOuter
    · rw [scope, ScopeTree.find?_inner wellFormed known isParent, ScopeTree.local?_eq_bound named, views.means, binder?]
      cases isInner : (Binder.inScope (analysis.tree.child site.scope place) names).find? _ with
      | none => rfl
      | some binder =>
          obtain ⟨id, isBound⟩ := ScopeTree.exists_bound named (List.mem_of_find?_eq_some isInner)
          simp only [Option.bind_some, isBound, Option.some_or]
  · exact fits.inside views.isTree written

/-- A name in sight is a variable that the tree knows by that name. -/
theorem lookUp? (views : analysis.Views site vantage) (name : String) :
    site.lookUp? name = (analysis.tree.find? vantage.scope name).map analysis.tree.variableAt := by
  rw [views.scope]
  exact (views.sees name).symm

theorem find?_eq_none (views : analysis.Views site vantage) {name : String} :
    analysis.tree.find? vantage.scope name = none ↔ analysis.binder? vantage name = none := by
  rw [views.scope, views.means]
  cases isBinder : analysis.binder? vantage name with
  | none => exact ⟨fun _ => rfl, fun _ => rfl⟩
  | some binder =>
      obtain ⟨id, isBound⟩ := views.bound name binder isBinder
      rw [Option.bind_some, isBound]
      exact ⟨nofun, nofun⟩

theorem resolves (views : analysis.Views site vantage) (name : String) (position : Position) (usage : Usage)
    (reads : ∀ type, usage = .read type →
      type = some (analysis.typeIn vantage.current (analysis.tree.find? vantage.scope name)))
    (writes : ∀ type position, usage = .write type position → type.isSome) :
    analysis.Resolves ⟨vantage, name, position, usage⟩ := by
  have means : analysis.tree.find? vantage.scope name = (analysis.binder? vantage name).bind analysis.tree.bound? :=
    views.scope ▸ views.means name
  refine ⟨fun binder isBinder => ?_, means, reads, writes⟩
  obtain ⟨id, isBound⟩ := views.bound name binder isBinder
  rw [Option.mem_def.mp isBinder, Option.bind_some, isBound] at means
  exact ⟨id, isBound, ScopeTree.name_of_find? means⟩

end Views

end Analysis

/-! ### Surveys -/

namespace Survey

variable {α β : Type} {hierarchy : Hierarchy}

/-- Whether a survey reports nothing about names. -/
def Nameless (hierarchy : Hierarchy) (survey : Survey α) : Prop :=
  (survey.diagnostics hierarchy).filter Diagnostic.isUnknownVariable = []

namespace Nameless

theorem pure (value : α) : (Pure.pure value : Survey α).Nameless hierarchy :=
  rfl

theorem bind {survey : Survey α} {next : α → Survey β} (nameless : survey.Nameless hierarchy)
    (nameless' : (next survey.value).Nameless hierarchy) : (survey >>= next).Nameless hierarchy := by
  rw [Nameless, diagnostics_bind, List.filter_append, nameless, nameless', List.append_nil]

theorem flow (target : Target) (type expected : TypeId) (position : Position) :
    (Survey.flow target type expected position).Nameless hierarchy := by
  have diagnostics : (Survey.flow target type expected position).diagnostics hierarchy =
      if hierarchy.conforms type expected then []
      else [⟨position, .incompatibleTypes (hierarchy.name type) (hierarchy.name expected)⟩] :=
    List.append_nil _
  rw [Nameless, diagnostics]
  split <;> rfl

theorem fault {position : Position} {problem : Problem}
    (other : Diagnostic.isUnknownVariable ⟨position, problem⟩ = false) :
    (Survey.fault position problem).Nameless hierarchy := by
  have diagnostics : (Survey.fault position problem).diagnostics hierarchy = [⟨position, problem⟩] := rfl
  rw [Nameless, diagnostics, List.filter_cons_of_neg (by simp [other]), List.filter_nil]

end Nameless

end Survey

namespace Site

open Survey

variable {site : Site} {hierarchy : Hierarchy}

theorem nameless_dispatchType (receiver : TypeId) (cast : Option Ident) :
    (site.dispatchType receiver cast).Nameless hierarchy := by
  unfold dispatchType
  cases cast with
  | none => exact .pure _
  | some written =>
      dsimp only
      cases site.hierarchy.get written.name with
      | error error => exact (Nameless.fault (error.isUnknownVariable _)).bind (.pure _)
      | ok type =>
          dsimp only
          split
          · exact (Nameless.flow _ _ _ _).bind (.pure _)
          · exact (Nameless.fault rfl).bind (.pure _)

theorem nameless_callee (owner : TypeId) (method : Ident) (args : Nat) :
    (site.callee owner method args).Nameless hierarchy := by
  unfold callee
  split
  · exact .pure _
  · cases site.hierarchy.method? owner method.name with
    | none => exact (Nameless.fault rfl).bind (.pure _)
    | some found =>
        dsimp only
        split
        · exact .pure _
        · exact (Nameless.fault rfl).bind (.pure _)

theorem nameless_bindingType (written : Option Ident) : (site.bindingType written).Nameless hierarchy := by
  unfold bindingType
  cases written with
  | none => exact .pure _
  | some written =>
      dsimp only
      cases site.hierarchy.get written.name with
      | error error => exact (Nameless.fault (error.isUnknownVariable _)).bind (.pure _)
      | ok type => exact .pure _

theorem nameless_branchType (seen : List TypeId) (written : Ident) :
    (site.branchType seen written).Nameless hierarchy := by
  unfold branchType
  cases site.hierarchy.get written.name with
  | error error => exact (Nameless.fault (error.isUnknownVariable _)).bind (.pure _)
  | ok type =>
      dsimp only
      split
      · exact (Nameless.fault rfl).bind (.pure _)
      · split
        · exact (Nameless.fault rfl).bind (.pure _)
        · exact .pure _

theorem nameless_newType (written : Ident) : (site.newType written).Nameless hierarchy := by
  unfold newType
  cases site.hierarchy.get written.name with
  | error error => exact (Nameless.fault (error.isUnknownVariable _)).bind (.pure _)
  | ok type =>
      dsimp only
      split
      · exact .pure _
      · split
        · exact (Nameless.fault rfl).bind (.pure _)
        · exact .pure _

end Site

/-! ### What surveys report of names -/

/-- A survey accounts for uses, beyond some that are accounted for before: all of them resolve, what is refused is
reported, and those that nothing binds are what is reported of names, in their order. -/
structure Survey.Accounts {α : Type} (analysis : Analysis) (before : List Use) (good : α → Prop) (uses : α → List Use)
    (survey : Survey α) : Prop where
  good : good survey.value
  told : ∃ later, uses survey.value = before ++ later ∧
    (∀ use ∈ later, analysis.Resolves use ∧
      ∀ fault ∈ analysis.refusal? use, fault ∈ survey.diagnostics analysis.hierarchy) ∧
    (survey.diagnostics analysis.hierarchy).filter Diagnostic.isUnknownVariable =
      (later.filter fun use => (analysis.binder? use.toVantage use.name).isNone).map Use.unknown

namespace Survey.Accounts

variable {α β : Type} {analysis : Analysis} {before : List Use} {good : α → Prop} {uses : α → List Use}
  {good' : β → Prop} {uses' : β → List Use} {survey : Survey α} {next : α → Survey β}

theorem pure {value : α} (isGood : good value) (same : uses value = before) :
    Accounts analysis before good uses (Pure.pure value) :=
  ⟨isGood, [], same.trans (List.append_nil _).symm, nofun, rfl⟩

theorem bind (accounts : Accounts analysis [] good uses survey)
    (accounts' : ∀ value, good value → Accounts analysis (before ++ uses value) good' uses' (next value)) :
    Accounts analysis before good' uses' (survey >>= next) := by
  obtain ⟨isGood, first, isFirst, resolves, unknown⟩ := accounts
  obtain ⟨isGood', second, isSecond, resolves', unknown'⟩ := accounts' survey.value isGood
  refine ⟨isGood', first ++ second, ?_, fun use member => ?_, ?_⟩
  · rw [isFirst, List.nil_append, List.append_assoc] at isSecond
    exact isSecond
  · rw [diagnostics_bind]
    rcases List.mem_append.mp member with member | member
    · obtain ⟨isResolved, refused⟩ := resolves use member
      exact ⟨isResolved, fun fault isFault => List.mem_append_left _ (refused fault isFault)⟩
    · obtain ⟨isResolved, refused⟩ := resolves' use member
      exact ⟨isResolved, fun fault isFault => List.mem_append_right _ (refused fault isFault)⟩
  · rw [diagnostics_bind, List.filter_append, unknown, unknown', List.filter_append, List.map_append]

/-- The first survey has nothing to do with names. -/
theorem bindNameless (nameless : survey.Nameless analysis.hierarchy)
    (accounts : Accounts analysis before good' uses' (next survey.value)) :
    Accounts analysis before good' uses' (survey >>= next) := by
  have first : Accounts analysis [] (fun value => value = survey.value) (fun _ => []) survey :=
    ⟨rfl, [], rfl, nofun, nameless⟩
  refine first.bind fun value same => ?_
  rw [List.append_nil, same]
  exact accounts

end Survey.Accounts

namespace Site

open Survey

variable {analysis : Analysis} {site : Site} {vantage : Vantage}

theorem typeOfName_accounts (views : analysis.Views site vantage) (note : Note) (name : String) :
    Accounts analysis [] (fun type => type = analysis.typeIn vantage.current (analysis.tree.find? vantage.scope name))
      (fun type => [⟨vantage, name, note.position, .read (some type)⟩]) (site.typeOfName name note.position) := by
  have isSeen := views.lookUp? name
  have resolves := views.resolves name note.position
    (.read (some (analysis.typeIn vantage.current (analysis.tree.find? vantage.scope name))))
    (fun type same => (Usage.read.inj same).symm) nofun
  unfold typeOfName
  cases found : analysis.tree.find? vantage.scope name with
  | none =>
      rw [found] at isSeen resolves
      have unbound := views.find?_eq_none.mp found
      rw [isSeen]
      refine ⟨rfl, _, rfl, List.forall_mem_singleton.mpr ⟨resolves, ?_⟩, ?_⟩
      · simp [Analysis.refusal?]
      · rw [List.filter_cons_of_pos (by simp [unbound])]
        simp only [List.filter_nil, List.map_cons, List.map_nil, Use.unknown, views.feature]
        rfl
  | some id =>
      rw [found] at isSeen resolves
      have bound : analysis.binder? vantage name ≠ none := by
        rw [Ne, ← views.find?_eq_none, found]
        exact Option.some_ne_none id
      rw [isSeen]
      have isType : site.resolveSelf (analysis.tree.variableAt id).type =
          analysis.typeIn vantage.current (some id) := by
        rw [Analysis.typeIn, views.current]
        rfl
      refine ⟨isType, _, rfl, ?_, ?_⟩
      · refine List.forall_mem_singleton.mpr ⟨?_, by simp [Analysis.refusal?]⟩
        change analysis.Resolves ⟨vantage, name, note.position,
          .read (some (site.resolveSelf (analysis.tree.variableAt id).type))⟩
        rwa [isType]
      · rw [List.filter_cons_of_neg (by simpa [Option.isNone_iff_eq_none] using bound)]
        rfl

theorem surveyTarget_accounts (views : analysis.Views site vantage) (target : Ident) (type : TypeId)
    (position : Position) :
    Accounts analysis [] (fun _ => True) (fun _ => if target.name = "self" then [] else
        [⟨vantage, target.name, target.position, .write (some type) position⟩])
      (site.surveyTarget target type position) := by
  have isSeen := views.lookUp? target.name
  have resolves := views.resolves target.name target.position (.write (some type) position) nofun
    fun _ _ same => (Usage.write.inj same).1 ▸ rfl
  unfold surveyTarget
  by_cases isSelf : target.name = "self"
  · rw [if_pos isSelf, if_pos isSelf]
    exact ⟨trivial, [], rfl, nofun, rfl⟩
  · rw [if_neg isSelf, if_neg isSelf]
    cases found : analysis.tree.find? vantage.scope target.name with
    | none =>
        have unbound := views.find?_eq_none.mp found
        rw [isSeen, found]
        refine ⟨trivial, _, rfl, List.forall_mem_singleton.mpr ⟨resolves, ?_⟩, ?_⟩
        · simp [Analysis.refusal?, found]
        · rw [List.filter_cons_of_pos (by simp [unbound])]
          simp only [List.filter_nil, List.map_cons, List.map_nil, Use.unknown, views.feature]
          rfl
    | some id =>
        have bound : analysis.binder? vantage target.name ≠ none := by
          rw [Ne, ← views.find?_eq_none, found]
          exact Option.some_ne_none id
        rw [isSeen, found]
        refine ⟨trivial, _, rfl, List.forall_mem_singleton.mpr ⟨resolves, fun fault isFault => ?_⟩, ?_⟩
        · have isType : site.resolveSelf (analysis.tree.variableAt id).type =
              analysis.typeIn vantage.current (some id) := by
            rw [Analysis.typeIn, views.current]
            rfl
          simp only [Analysis.refusal?, found, Option.mem_def] at isFault
          change fault ∈ (Survey.flow (.variable (analysis.tree.variableAt id)) type
            (site.resolveSelf (analysis.tree.variableAt id).type) position).diagnostics analysis.hierarchy
          rw [isType]
          split at isFault
          · cases isFault
          · cases isFault
            rename_i differs
            refine List.mem_flatMap.mpr ⟨_, List.mem_singleton_self _, ?_⟩
            rw [Finding.diagnostics, if_neg differs]
            exact List.mem_singleton_self _
        · rw [List.filter_cons_of_neg (by simpa [Option.isNone_iff_eq_none] using bound)]
          exact Nameless.flow _ _ _ _

end Site

/-- An expression with its static type, which has the scopes that it had without. -/
structure Expr.TypedAs (expr : Expr) (result : Expr × TypeId) : Prop where
  nests : result.1.nests = expr.nests
  type : result.1.type? = some result.2

end CoolLang
