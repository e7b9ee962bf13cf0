import CoolLang.Proofs.Hierarchy.Cycles

/-!
What building makes of the parents that classes declare. A declaration is kept, or it is at fault and gives
way to `Object` (`Hierarchy.Declares`); then each cycle of what is left is taken apart at its first class.
The outcome is a tree with `Object` at its root, and the diagnostics say just this
(`Hierarchy.build_tree`).
-/

namespace CoolLang

open Relation

/-! ### The specification -/

/-- The types that a feature writes down in its signature. -/
def Feature.writtenTypes : Feature → List Ident
  | .attribute decl => [decl.type]
  | .method decl => decl.params.map Param.type ++ [decl.result]

/-- The declarations whose names are still free when their turn comes. -/
def introduced {α : Type} (name : α → String) (taken : List String) : List α → List α
  | [] => []
  | decl :: decls =>
      if name decl ∈ taken then introduced name taken decls
      else decl :: introduced name (taken ++ [name decl]) decls

def ClassDecl.typeName (decl : ClassDecl) : String :=
  decl.name.name

/-- Whether a diagnostic is about something else than parents: a type that it does not find is one in the
signature of a feature. -/
structure Diagnostic.OfFeatures (typed : List (ClassDecl × TypeId)) (fault : Diagnostic) : Prop where
  notParent : ∀ child parent, fault.problem ≠ .invalidParent child parent
  notCycle : ∀ name, fault.problem ≠ .cyclicInheritance name
  unknown : ∀ name, fault.problem = .unknownType name → ∃ class' ∈ typed, ∃ feature ∈ class'.1.features,
    ∃ written ∈ feature.writtenTypes, fault = ⟨written.position, .unknownType written.name⟩

namespace Hierarchy

/-- The names of the types that there are from the beginning. -/
def initialNames : List String :=
  ["SELF_TYPE", "AUTO_TYPE", "Object", "IO", "Int", "String", "Bool"]

/-- The types that no class can have as its parent: the sentinels that have names, and the primitive
types. -/
def childless : List TypeId :=
  [.selfType, .autoType, .int, .string, .bool]

/-- The parent that a class gets for its declaration, with the diagnostics of it. -/
inductive Declares (hierarchy : Hierarchy) (decl : ClassDecl) : TypeId → List Diagnostic → Prop
  | omitted (none : decl.parent = none) : Declares hierarchy decl .object []
  | unknown {written : Ident} (some : decl.parent = some written)
      (absent : hierarchy.find? written.name = Option.none) :
      Declares hierarchy decl .object [⟨written.position, .unknownType written.name⟩]
  | refused {written : Ident} {type : TypeId} (some : decl.parent = some written)
      (names : hierarchy.find? written.name = Option.some type) (refused : type ∈ childless) :
      Declares hierarchy decl .object
        [⟨written.position, .invalidParent decl.name.name written.name⟩]
  | accepted {written : Ident} {type : TypeId} (some : decl.parent = some written)
      (names : hierarchy.find? written.name = Option.some type) (accepted : type ∉ childless) :
      Declares hierarchy decl type []

/-- The graph of the parents that some classes declare. -/
def DeclaredParent (hierarchy : Hierarchy) (typed : List (ClassDecl × TypeId)) (child parent : TypeId) : Prop :=
  ∃ decl faults, (decl, child) ∈ typed ∧ hierarchy.Declares decl parent faults

variable {hierarchy next : Hierarchy} {type : TypeId}

/-! ### Declared parents -/

theorem Collected.refuses_iff (collected : hierarchy.Collected) (known : type.index < hierarchy.types.size)
    (notError : type ≠ .error) :
    (!type.isConcrete || (hierarchy.info type).isSealed) = true ↔ type ∈ childless := by
  by_cases small : type.index < 8
  · rw [collected.first type small]
    have all : ∀ type ∈ initial.ids, type ≠ .error →
        ((!type.isConcrete || (initial.info type).isSealed) = true ↔ type ∈ childless) := by
      decide
    exact all type (mem_ids.mpr small) notError
  · obtain ⟨name, isNamed⟩ := collected.named type (Nat.le_of_not_lt small) known
    have others {sentinel : TypeId} (builtin : sentinel.index < 8) : type ≠ sentinel := by
      rintro rfl
      exact small builtin
    have concrete : type.isConcrete = true := by
      simp only [TypeId.isConcrete, Bool.and_eq_true, bne_iff_ne]
      exact ⟨⟨others (by decide), others (by decide)⟩, notError⟩
    rw [isNamed, concrete]
    refine iff_of_false Bool.false_ne_true fun member => small ?_
    have all : ∀ type ∈ childless, type.index < 8 := by decide
    exact all type member

theorem Collected.declares_iff (collected : hierarchy.Collected) {decl : ClassDecl} {parent : TypeId}
    {faults : List Diagnostic} :
    hierarchy.Declares decl parent faults ↔ hierarchy.declaredParent decl = (parent, faults) := by
  have refuses {written : String} {type : TypeId} (names : hierarchy.find? written = some type) :=
    collected.refuses_iff (find?_known names).1 (find?_known names).2.1
  unfold declaredParent
  constructor
  · rintro (none | ⟨isWritten, absent⟩ | ⟨isWritten, names, refused⟩ | ⟨isWritten, names, accepted⟩)
    · rw [none]
    · simp only [isWritten, get, absent, HierarchyError.problem]
    · simp only [isWritten, get, names]
      rw [if_pos ((refuses names).mpr refused)]
    · simp only [isWritten, get, names]
      rw [if_neg (mt (refuses names).mp accepted)]
  · intro same
    cases isWritten : decl.parent with
    | none =>
        rw [isWritten] at same
        cases same
        exact .omitted isWritten
    | some written =>
        cases names : hierarchy.find? written.name with
        | none =>
            simp only [isWritten, get, names, HierarchyError.problem] at same
            cases same
            exact .unknown isWritten names
        | some type =>
            simp only [isWritten, get, names] at same
            split at same
            · cases same
              exact .refused isWritten names ((refuses names).mp ‹_›)
            · cases same
              exact .accepted isWritten names (mt (refuses names).mpr ‹_›)

/-- A declaration means the same where the same names and seals are. -/
theorem declaredParent_congr (same : hierarchy.find? = next.find?)
    (isSealed : ∀ type, (hierarchy.info type).isSealed = (next.info type).isSealed) (decl : ClassDecl) :
    hierarchy.declaredParent decl = next.declaredParent decl := by
  simp only [declaredParent, get, same, isSealed]

theorem Alike.declaredParent (alike : hierarchy.Alike next) (decl : ClassDecl) :
    hierarchy.declaredParent decl = next.declaredParent decl :=
  declaredParent_congr alike.find? alike.isSealed decl

/-- A parent matters to no name. -/
theorem find?_setParent (parent : TypeId) : (hierarchy.setParent type parent).find? = hierarchy.find? :=
  find?_update rfl

theorem declaredParent_setParent (parent : TypeId) (decl : ClassDecl) :
    (hierarchy.setParent type parent).declaredParent decl = hierarchy.declaredParent decl := by
  refine declaredParent_congr (find?_setParent parent) (fun other => ?_) decl
  rw [setParent, info_update_eq]
  split <;> rfl

/-- Building leaves what names mean. -/
theorem find?_build (hierarchy : Hierarchy) (program : Program) (types : ClassTypes) :
    (hierarchy.build program types).1.find? = hierarchy.find? := by
  unfold build
  dsimp only
  rw [(defineAllFeatures_alike _ (program.typed types)).find?]
  have linked : (reportEach linkParent hierarchy.defineBuiltins (program.typed types)).1.find? = hierarchy.find? :=
    reportEach_keeps (p := fun state : Hierarchy => state.find? = hierarchy.find?)
      (fun state class' same => by
        rw [show (state.linkParent class').1 = state.setParent class'.2 (state.declaredParent class'.1).1 from rfl,
          find?_setParent, same])
      (defineBuiltins_alike hierarchy).find? _
  refine reportEach_keeps (p := fun state : Hierarchy => state.find? = hierarchy.find?)
    (fun state class' same => ?_) linked _
  unfold breakCycle
  dsimp only
  split
  · rw [find?_setParent, same]
  · exact same

/-- A type is found by its name. -/
theorem Collected.find?_name (collected : hierarchy.Collected) (program : Program) (types : ClassTypes)
    (known : type.index < hierarchy.types.size) (notError : type ≠ .error) :
    (hierarchy.build program types).1.find? ((hierarchy.build program types).1.name type) = some type := by
  have found : (hierarchy.build program types).1.find? (hierarchy.name type) = some type := by
    rw [find?_build]
    exact collected.distinct type known notError
  rwa [(find?_known found).2.2]

/-- Linking gives each class the parent that it declares. -/
theorem linkParents_links (hierarchy : Hierarchy) (typed : List (ClassDecl × TypeId))
    (known : ∀ class' ∈ typed, class'.2.index < hierarchy.types.size)
    (apart : (typed.map Prod.snd).Nodup) :
    (reportEach linkParent hierarchy typed).2 =
        (typed.map fun class' => (hierarchy.declaredParent class'.1).2).flatten ∧
      ∀ class' ∈ typed, (reportEach linkParent hierarchy typed).1.parent? class'.2 =
        some (hierarchy.declaredParent class'.1).1 := by
  induction typed generalizing hierarchy with
  | nil => exact ⟨rfl, nofun⟩
  | cons class' typed ih =>
      obtain ⟨isKnown, later⟩ := List.forall_mem_cons.mp known
      obtain ⟨isApart, apart⟩ := List.nodup_cons.mp apart
      obtain ⟨found, parents⟩ := ih (hierarchy.linkParent class').1
        (fun other member => Nat.lt_of_lt_of_eq (later other member) (size_update ..).symm) apart
      have same (decl : ClassDecl) :
          (hierarchy.linkParent class').1.declaredParent decl = hierarchy.declaredParent decl :=
        declaredParent_setParent _ decl
      simp only [same] at found parents
      refine ⟨?_, fun other member => ?_⟩
      · rw [reportEach]
        dsimp only
        rw [found]
        rfl
      · rcases List.mem_cons.mp member with rfl | member
        · exact (parent?_linkParents isApart).trans (parent?_setParent_self isKnown)
        · exact parents other member

/-! ### Collecting -/

/-- What is collected is what has a name of its own, and the name is that of its type. -/
theorem collectAll_introduces (decls : List ClassDecl) (taken : List String)
    (collected : hierarchy.Collected) (names : ∀ name, (hierarchy.find? name).isSome ↔ name ∈ taken) :
    (Program.typed ⟨decls⟩ (hierarchy.collectAll decls).2.1).map Prod.fst = introduced ClassDecl.typeName taken decls ∧
      (∀ class' ∈ Program.typed ⟨decls⟩ (hierarchy.collectAll decls).2.1,
        (hierarchy.collectAll decls).1.find? class'.1.name.name = some class'.2) ∧
      ∀ name type, hierarchy.find? name = some type → (hierarchy.collectAll decls).1.find? name = some type := by
  induction decls generalizing hierarchy taken with
  | nil => exact ⟨rfl, fun _ member => absurd member List.not_mem_nil, fun _ _ found => found⟩
  | cons decl decls ih =>
      rw [collectAll, introduced]
      cases isTaken : hierarchy.find? decl.name.name with
      | some type =>
          have refused : hierarchy.create decl.name.name = .error (.duplicateType decl.name.name) := by
            rw [create, isTaken]
          have isTaken' : decl.typeName ∈ taken := (names _).mp (Option.isSome_of_mem isTaken)
          rw [refused, if_pos isTaken']
          exact ih taken collected names
      | none =>
          have created : hierarchy.create decl.name.name =
              .ok (⟨hierarchy.types.size⟩, ⟨hierarchy.types.push (.named decl.name.name)⟩) := by
            rw [create, isTaken]
          have isFree : decl.typeName ∉ taken := fun member => by
            have isSome : (hierarchy.find? decl.name.name).isSome := (names _).mpr member
            rw [isTaken] at isSome
            cases isSome
          have pushed := find?_push (.named decl.name.name) collected.builtins
          obtain ⟨same, found, keeps⟩ := ih (taken ++ [decl.name.name])
            (create_collected collected created).1 fun name => by
              rw [pushed, Option.isSome_or, Bool.or_eq_true, names, List.mem_append,
                List.mem_singleton, show (TypeInfo.named decl.name.name).name = decl.name.name from rfl]
              refine or_congr_right ?_
              split
              · exact iff_of_true rfl (Eq.symm ‹_›)
              · exact iff_of_false Bool.false_ne_true (Ne.symm ‹_›)
          rw [created, if_neg isFree]
          refine ⟨congrArg (decl :: ·) same, fun class' member => ?_, fun name type isFound => ?_⟩
          · rcases List.mem_cons.mp member with rfl | member
            · refine keeps _ _ ?_
              rw [pushed, isTaken, Option.none_or]
              exact if_pos rfl
            · exact found class' member
          · refine keeps _ _ ?_
            rw [pushed, isFound, Option.some_or]

theorem collect_introduces (program : Program) :
    (program.typed (initial.collect program).2.1).map Prod.fst = introduced ClassDecl.typeName initialNames program.classes ∧
      ∀ class' ∈ program.typed (initial.collect program).2.1,
        (initial.collect program).1.find? class'.1.name.name = some class'.2 := by
  have names (name : String) : (initial.find? name).isSome ↔ name ∈ initialNames := by
    rw [find?, List.find?_isSome]
    constructor
    · rintro ⟨type, member, same⟩
      rw [Bool.and_eq_true, bne_iff_ne, beq_iff_eq] at same
      have all : ∀ type ∈ initial.ids, type ≠ .error → initial.name type ∈ initialNames := by decide
      exact same.2 ▸ all type member same.1
    · intro member
      have all : ∀ name ∈ initialNames, ∃ type ∈ initial.ids,
          (type != .error && initial.name type == name) = true := by
        decide
      exact all name member
  obtain ⟨same, found, _⟩ := collectAll_introduces program.classes _ initial_collected names
  exact ⟨same, found⟩

/-! ### The other diagnostics -/

theorem mem_reportEach {σ α : Type} {step : σ → α → Reported σ} {state : σ} {items : List α}
    {fault : Diagnostic} (member : fault ∈ (reportEach step state items).2) :
    ∃ state, ∃ item ∈ items, fault ∈ (step state item).2 := by
  induction items generalizing state with
  | nil => cases member
  | cons item items ih =>
      rcases List.mem_append.mp member with now | later
      · exact ⟨state, item, List.mem_cons_self, now⟩
      · obtain ⟨state, item, isItem, found⟩ := ih later
        exact ⟨state, item, List.mem_cons_of_mem _ isItem, found⟩

/-- A diagnostic about neither parents nor types that are not found. -/
theorem ofFeatures_of_other {typed : List (ClassDecl × TypeId)} {fault : Diagnostic}
    (notParent : ∀ child parent, fault.problem ≠ .invalidParent child parent)
    (notCycle : ∀ name, fault.problem ≠ .cyclicInheritance name)
    (notUnknown : ∀ name, fault.problem ≠ .unknownType name) : fault.OfFeatures typed :=
  ⟨notParent, notCycle, fun name same => absurd same (notUnknown name)⟩

theorem mem_resolve {written : Ident} {fault : Diagnostic} (member : fault ∈ (hierarchy.resolve written).2) :
    fault = ⟨written.position, .unknownType written.name⟩ := by
  unfold resolve get at member
  cases found : hierarchy.find? written.name with
  | some type =>
      rw [found] at member
      cases member
  | none =>
      rw [found] at member
      exact List.mem_singleton.mp member

theorem defineFeature_ofFeatures {typed : List (ClassDecl × TypeId)} {class' : ClassDecl × TypeId}
    (isClass : class' ∈ typed) {feature : Feature} (isFeature : feature ∈ class'.1.features)
    {fault : Diagnostic} (member : fault ∈ (defineFeature class'.2 hierarchy feature).2) :
    fault.OfFeatures typed := by
  have ofWritten {written : Ident} (isWritten : written ∈ feature.writtenTypes)
      (member : fault ∈ (hierarchy.resolve written).2) : fault.OfFeatures typed := by
    obtain rfl := mem_resolve member
    exact ⟨nofun, nofun, fun _ _ => ⟨class', isClass, feature, isFeature, written, isWritten, rfl⟩⟩
  rcases feature with decl | decl
  · unfold defineFeature at member
    rcases List.mem_append.mp member with member | member
    · exact ofWritten (List.mem_singleton_self _) member
    · unfold defineAttribute at member
      dsimp only at member
      split at member
      · obtain rfl := List.mem_singleton.mp member
        exact ofFeatures_of_other nofun nofun nofun
      · cases member
  · unfold defineFeature at member
    rcases List.mem_append.mp member with member | member
    · rcases List.mem_append.mp member with member | member
      · obtain ⟨_, isResolved, member⟩ := List.mem_flatMap.mp member
        obtain ⟨param, isParam, rfl⟩ := List.mem_map.mp isResolved
        have isWritten : param.type ∈ (Feature.method decl).writtenTypes :=
          List.mem_append_left _ (List.mem_map_of_mem isParam)
        unfold resolveParam at member
        dsimp only at member
        split at member
        · rcases List.mem_append.mp member with member | member
          · exact ofWritten isWritten member
          · obtain rfl := List.mem_singleton.mp member
            exact ofFeatures_of_other nofun nofun nofun
        · exact ofWritten isWritten member
      · exact ofWritten (List.mem_append_right _ (List.mem_singleton_self _)) member
    · unfold defineMethod at member
      dsimp only at member
      split at member
      · obtain rfl := List.mem_singleton.mp member
        exact ofFeatures_of_other nofun nofun nofun
      · cases member

theorem overrides_ofFeatures {typed : List (ClassDecl × TypeId)} {fault : Diagnostic}
    (member : fault ∈ hierarchy.overrides type) : fault.OfFeatures typed := by
  unfold overrides at member
  cases isParent : hierarchy.parent? type with
  | none =>
      rw [isParent] at member
      cases member
  | some parent =>
      rw [isParent] at member
      rcases List.mem_append.mp member with member | member
      · obtain ⟨attr, _, isFault⟩ := List.mem_filterMap.mp member
        obtain ⟨_, _, rfl⟩ := Option.map_eq_some_iff.mp isFault
        exact ofFeatures_of_other nofun nofun nofun
      · obtain ⟨method, _, isFault⟩ := List.mem_filterMap.mp member
        unfold methodOverride? at isFault
        split at isFault
        · cases isFault
        · split at isFault
          · cases isFault
          · cases isFault
            exact ofFeatures_of_other nofun nofun nofun

theorem missingMain_ofFeatures {typed : List (ClassDecl × TypeId)} {fault : Diagnostic}
    (member : fault ∈ hierarchy.missingMain typed) : fault.OfFeatures typed := by
  unfold missingMain at member
  dsimp only at member
  split at member
  · cases member
  · obtain rfl := List.mem_singleton.mp member
    exact ofFeatures_of_other nofun nofun nofun

/-- What building reports after the faults of parents. -/
theorem build_faults (hierarchy : Hierarchy) (program : Program) (types : ClassTypes) :
    ∃ others, (hierarchy.build program types).2 =
        (reportEach linkParent hierarchy.defineBuiltins (program.typed types)).2 ++
          (reportEach breakCycle (reportEach linkParent hierarchy.defineBuiltins (program.typed types)).1
            (program.typed types)).2 ++ others ∧
      ∀ fault ∈ others, fault.OfFeatures (program.typed types) := by
  refine ⟨_, (List.append_assoc ..).trans (List.append_assoc ..), fun fault member => ?_⟩
  rcases List.mem_append.mp member with member | member
  · obtain ⟨state, class', isClass, member⟩ := mem_reportEach member
    obtain ⟨state, feature, isFeature, member⟩ := mem_reportEach member
    exact defineFeature_ofFeatures isClass isFeature member
  · rcases List.mem_append.mp member with member | member
    · obtain ⟨class', _, member⟩ := List.mem_flatMap.mp member
      exact overrides_ofFeatures member
    · exact missingMain_ofFeatures member

/-! ### Linking and breaking -/

theorem Declares.not_childless {decl : ClassDecl} {parent : TypeId} {faults : List Diagnostic}
    (declares : hierarchy.Declares decl parent faults) : parent ∉ childless := by
  have object : TypeId.object ∉ childless := by decide
  cases declares with
  | omitted => exact object
  | unknown => exact object
  | refused => exact object
  | accepted _ _ accepted => exact accepted

theorem nodup_numbered {typed : List (ClassDecl × TypeId)}
    (numbered : typed.map Prod.snd = (List.range' 8 (hierarchy.types.size - 8)).map TypeId.mk) :
    (typed.map Prod.snd).Nodup := by
  rw [numbered]
  exact List.Nodup.map (fun _ _ same => congrArg TypeId.index same) List.nodup_range'

section

variable {typed : List (ClassDecl × TypeId)} (collected : hierarchy.Collected)
  (numbered : typed.map Prod.snd = (List.range' 8 (hierarchy.types.size - 8)).map TypeId.mk)
include collected numbered

theorem Collected.links :
    Linked [] (reportEach linkParent hierarchy.defineBuiltins typed).1 ∧
      (reportEach linkParent hierarchy.defineBuiltins typed).2 =
        (typed.map fun class' => (hierarchy.declaredParent class'.1).2).flatten ∧
      (∀ class' ∈ typed, (reportEach linkParent hierarchy.defineBuiltins typed).1.IsParent class'.2
        (hierarchy.declaredParent class'.1).1) ∧
      ∀ child parent, (reportEach linkParent hierarchy.defineBuiltins typed).1.IsParent child parent →
        parent = .object ∨ hierarchy.DeclaredParent typed child parent := by
  have alike := defineBuiltins_alike hierarchy
  have known (class' : ClassDecl × TypeId) (member : class' ∈ typed) :
      class'.2.index < hierarchy.defineBuiltins.types.size :=
    alike.size.symm ▸ (mem_numbered numbered member).2
  obtain ⟨found, parents⟩ := linkParents_links _ typed known (nodup_numbered numbered)
  simp only [alike.declaredParent] at found parents
  refine ⟨linkParents_linked typed (fun class' member => ⟨known class' member, fun isObject => ?_⟩)
    ((collected.linked numbered).of_alike alike.symm), found, parents, fun child parent isParent => ?_⟩
  · have large := (mem_numbered numbered member).1
    rw [isObject] at large
    exact absurd large (by decide)
  · by_cases member : child ∈ typed.map Prod.snd
    · obtain ⟨⟨decl, type⟩, isClass, rfl⟩ := List.mem_map.mp member
      obtain rfl := isParent.unique (parents _ isClass)
      exact Or.inr ⟨decl, _, isClass, collected.declares_iff.mpr rfl⟩
    · rw [IsParent, parent?_linkParents member, alike.parent?] at isParent
      exact Or.inl (collected.parent_eq_object isParent)

/-- The cycles after linking are those of the declared parents. -/
theorem Collected.sameCycle_iff (one two : TypeId) :
    SameCycle (reportEach linkParent hierarchy.defineBuiltins typed).1.IsParent one two ↔
      SameCycle (hierarchy.DeclaredParent typed) one two := by
  obtain ⟨linked, _, parents, cases⟩ := collected.links numbered
  constructor
  · refine fun same => same.of_continuing fun one two three step step' => ?_
    rcases cases one two step with rfl | declared
    · rw [IsParent, linked.top] at step'
      cases step'
    · exact declared
  · refine fun same => same.of_continuing fun one two three step _ => ?_
    obtain ⟨decl, faults, member, declares⟩ := step
    have isParent := parents _ member
    rw [collected.declares_iff.mp declares] at isParent
    exact isParent

/-- Each class has the parent that it declares, unless it is the first on its cycle. -/
theorem Collected.breaks :
    ∃ reported : List (ClassDecl × TypeId),
      (reportEach breakCycle (reportEach linkParent hierarchy.defineBuiltins typed).1 typed).2 =
        reported.map cyclicFault ∧
      (∀ type, (reportEach breakCycle (reportEach linkParent hierarchy.defineBuiltins typed).1
          typed).1.parent? type =
        if type ∈ reported.map Prod.snd then some .object
        else (reportEach linkParent hierarchy.defineBuiltins typed).1.parent? type) ∧
      reported.Sublist typed ∧
      ∀ front class' back, typed = front ++ class' :: back →
        (class' ∈ reported ↔ IsFirst (hierarchy.DeclaredParent typed) front class'.2) := by
  obtain ⟨linked, _, _, _⟩ := collected.links numbered
  have start : Freed (reportEach linkParent hierarchy.defineBuiltins typed).1 [] []
      (reportEach linkParent hierarchy.defineBuiltins typed).1 :=
    ⟨List.Sublist.refl _, rfl, fun _ => (if_neg List.not_mem_nil).symm, nofun, nofun⟩
  obtain ⟨reported, freed, found, sublist, firsts⟩ := breakCycles_first linked start typed fun class' member => by
    rw [size_linkParents, (defineBuiltins_alike hierarchy).size]
    exact (mem_numbered numbered member).2
  refine ⟨reported, found, freed.parent?, sublist, fun front class' back split => ?_⟩
  obtain ⟨ofFirst, toFirst⟩ := firsts front class' back split
  rw [List.nil_append] at ofFirst toFirst
  have apart := nodup_numbered numbered
  rw [split, List.map_append, List.map_cons, List.nodup_middle, List.nodup_cons, ← List.map_append] at apart
  have same := collected.sameCycle_iff numbered
  exact ⟨fun member => (toFirst member apart.1).of_sameCycle same,
    fun isFirst => ofFirst (isFirst.of_sameCycle fun one two => (same one two).symm)⟩

/-- Neither what has no features of its own nor a primitive type is a parent. -/
theorem Collected.build_childless {child parent : TypeId}
    (step : (reportEach defineFeatures (reportEach breakCycle
      (reportEach linkParent hierarchy.defineBuiltins typed).1 typed).1 typed).1.IsParent child parent) :
    parent ∉ childless := by
  obtain ⟨_, _, _, cases⟩ := collected.links numbered
  obtain ⟨reported, _, freed, _⟩ := collected.breaks numbered
  have object : TypeId.object ∉ childless := by decide
  rw [IsParent, (defineAllFeatures_alike _ typed).parent?, freed] at step
  split at step
  · cases step
    exact object
  · rcases cases child parent step with rfl | ⟨_, _, _, declares⟩
    · exact object
    · exact declares.not_childless

end

/-! ### The tree -/

theorem Rooted.reflTransGen_object (rooted : hierarchy.Rooted) (isClass : hierarchy.IsClass type) :
    ReflTransGen hierarchy.IsParent type .object := by
  obtain ⟨steps, _, reached⟩ := mem_line_iff.mp (rooted.reaches type isClass)
  cases steps with
  | zero =>
      cases reached
      exact .refl
  | succ steps => exact (transGen_iff_climb.mpr ⟨steps, reached⟩).to_reflTransGen

theorem Rooted.not_transGen_self (rooted : hierarchy.Rooted) :
    ¬ TransGen hierarchy.IsParent type type := by
  intro cycle
  obtain ⟨_, _, step⟩ := TransGen.tail'_iff.mp cycle
  have isClass := rooted.parents _ _ step
  have leads (upper : TypeId) (way : TransGen hierarchy.IsParent type upper) :
      TransGen hierarchy.IsParent upper type :=
    (sameCycle_of_transGen cycle way fun _ _ _ => IsParent.unique).2
  have object : TransGen hierarchy.IsParent .object type := by
    rcases reflTransGen_iff_eq_or_transGen.mp (rooted.reflTransGen_object isClass) with same | way
    · exact same ▸ cycle
    · exact leads .object way
  obtain ⟨_, step, _⟩ := TransGen.head'_iff.mp object
  rw [IsParent, rooted.top] at step
  cases step

/-- Collecting and building leave the classes in a tree with `Object` at its root. The classes that get a
type are those with a name of their own. Each keeps the parent that it declares, or gets `Object` and one
diagnostic where it can have no such parent; and of each cycle among the parents so declared just the first
class is reported and gets `Object`. -/
theorem build_tree (program : Program) :
    let collected := (initial.collect program).1
    let types := (initial.collect program).2.1
    let typed := program.typed types
    let built := (collected.build program types).1
    typed.map Prod.fst = introduced ClassDecl.typeName initialNames program.classes ∧
    (∀ class' ∈ typed, collected.find? class'.1.name.name = some class'.2) ∧
    (∀ type, built.IsClass type →
      ReflTransGen built.IsParent type .object ∧ ¬ TransGen built.IsParent type type) ∧
    (∀ child parent, built.IsParent child parent → built.IsClass parent ∧ parent ∉ childless) ∧
    ∃ (links : List (List Diagnostic)) (reported : List (ClassDecl × TypeId)) (others : List Diagnostic),
      (collected.build program types).2 = links.flatten ++ reported.map cyclicFault ++ others ∧
      List.Forall₂ (fun class' faults => ∃ parent, collected.Declares class'.1 parent faults ∧
        built.IsParent class'.2 (if class'.2 ∈ reported.map Prod.snd then .object else parent)) typed links ∧
      reported.Sublist typed ∧
      (∀ front class' back, typed = front ++ class' :: back →
        (class' ∈ reported ↔ IsFirst (collected.DeclaredParent typed) front class'.2)) ∧
      ∀ fault ∈ others, fault.OfFeatures typed := by
  intro collected types typed built
  obtain ⟨isCollected, numbered⟩ := collect_collected program
  obtain ⟨introduces, named⟩ := collect_introduces program
  have numbered : typed.map Prod.snd = (List.range' 8 (collected.types.size - 8)).map TypeId.mk :=
    (map_snd_typed (length_collect initial program)).trans numbered
  have rooted : built.Rooted := isCollected.build_rooted numbered
  obtain ⟨_, linksFound, parents, _⟩ := isCollected.links numbered
  obtain ⟨reported, cyclesFound, freed, sublist, firsts⟩ := isCollected.breaks numbered
  have isParent (type : TypeId) : built.parent? type = if type ∈ reported.map Prod.snd then some .object
      else (reportEach linkParent collected.defineBuiltins typed).1.parent? type :=
    ((defineAllFeatures_alike _ typed).parent? type).trans (freed type)
  obtain ⟨others, found, ofFeatures⟩ := collected.build_faults program types
  refine ⟨introduces, named, fun type isClass => ⟨rooted.reflTransGen_object isClass, rooted.not_transGen_self⟩,
    fun child parent step => ⟨rooted.parents child parent step, isCollected.build_childless numbered step⟩,
    typed.map fun class' => (collected.declaredParent class'.1).2, reported, others,
    by rw [← linksFound, ← cyclesFound]; exact found, ?_, sublist, firsts, ofFeatures⟩
  rw [List.forall₂_map_right_iff, List.forall₂_same]
  intro class' member
  refine ⟨(collected.declaredParent class'.1).1, isCollected.declares_iff.mpr rfl, ?_⟩
  rw [IsParent, isParent]
  split
  · rfl
  · exact parents class' member

end Hierarchy

end CoolLang
