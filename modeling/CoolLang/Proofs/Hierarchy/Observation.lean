import CoolLang.Proofs.Hierarchy.Consistency
import CoolLang.Proofs.Hierarchy.Lattice

/-!
What observations make of a variable in a hierarchy whose classes are a tree. One declared with a type
never changes. One whose type is to be inferred waits for the first class that is observed, takes it, and
from then on has the least upper bound of it and of all classes observed since, hints apart. An observation
says that it has changed the variable exactly if it has, and two views of one declaration that have taken
over from each other agree (`Variable.observations_join`).
-/

namespace CoolLang

variable {hierarchy : Hierarchy}

/-! ### What can be observed -/

/-- Whether an observation can be made of a variable whose type is to be inferred, or is not: types are
those of the hierarchy, and another view is one that can have come about, of the same kind. -/
def Observation.Fits (hierarchy : Hierarchy) (views : Variable → Prop) (auto : Bool) : Observation → Prop
  | .hint type => type.index < hierarchy.types.size
  | .value type => type.index < hierarchy.types.size
  | .merge other => views other ∧ other.auto = auto

/-- What observations can make of a declaration. -/
inductive Variable.Reached (hierarchy : Hierarchy) : Variable → Prop where
  | declared (name : String) (type : TypeId) : Reached hierarchy (.declared name type)
  | hint {info : Variable} {type : TypeId} (reached : Reached hierarchy info)
      (known : type.index < hierarchy.types.size) :
      Reached hierarchy (info.observe hierarchy.union (.hint type)).1
  | value {info : Variable} {type : TypeId} (reached : Reached hierarchy info)
      (known : type.index < hierarchy.types.size) :
      Reached hierarchy (info.observe hierarchy.union (.value type)).1
  | merge {info other : Variable} (reached : Reached hierarchy info) (reached' : Reached hierarchy other)
      (alike : other.auto = info.auto) : Reached hierarchy (info.observe hierarchy.union (.merge other)).1

namespace Observation

variable {observation : Observation} {views weaker : Variable → Prop} {type : TypeId} {auto : Bool}

theorem class?_of_widening? (widens : observation.widening? = some type) : observation.class? = some type := by
  cases observation with
  | hint => cases widens
  | value => exact widens
  | merge => exact widens

theorem Fits.mono (fits : observation.Fits hierarchy views auto) (weak : ∀ other, views other → weaker other) :
    observation.Fits hierarchy weaker auto := by
  cases observation with
  | hint => exact fits
  | value => exact fits
  | merge other => exact ⟨weak other fits.1, fits.2⟩

end Observation

namespace Variable

variable {join : TypeId → TypeId → TypeId} {info other : Variable} {observation : Observation} {type : TypeId}

/-- What observations keep. -/
structure Regular (hierarchy : Hierarchy) (info : Variable) : Prop where
  /-- Nothing is learned about a declaration that has a type. -/
  asked : info.inferred = true → info.auto = true
  waits : info.isOpen = true → info.type = .autoType
  isClass : info.inferred = true → hierarchy.IsClass info.type

theorem declared_regular (name : String) (type : TypeId) : (declared name type).Regular hierarchy where
  asked := nofun
  waits waiting := by
    rw [isOpen, Bool.and_eq_true] at waiting
    exact eq_of_beq waiting.1
  isClass := nofun

theorem regular_of_inferred (inferred : info.inferred = true) (isAuto : info.auto = true)
    (isClass : hierarchy.IsClass info.type) : info.Regular hierarchy where
  asked _ := isAuto
  waits waiting := by
    rw [isOpen_of_inferred inferred] at waiting
    cases waiting
  isClass _ := isClass

/-! ### The three stages -/

theorem isClass_of_class? (fits : observation.Fits hierarchy (Regular hierarchy) info.auto)
    (isAbout : observation.class? = some type) : hierarchy.IsClass type := by
  have ofType {observed : TypeId} (known : observed.index < hierarchy.types.size)
      (isExpected : observed.expected? = some type) : hierarchy.IsClass type := by
    rw [TypeId.expected?] at isExpected
    split at isExpected
    · cases isExpected
      exact ⟨‹_›, known⟩
    · cases isExpected
  cases observation with
  | hint observed => exact ofType fits isAbout
  | value observed => exact ofType fits isAbout
  | merge other =>
      rw [Observation.class?] at isAbout
      split at isAbout
      · cases isAbout
        exact fits.1.isClass ‹_›
      · cases isAbout

/-- A declaration that has a type keeps it. -/
theorem observe_declared (typed : info.auto = false)
    (fits : observation.Fits hierarchy (Regular hierarchy) info.auto) :
    info.observe hierarchy.union observation = (info, false) := by
  cases observation with
  | hint type => simp [observe, reportHint, isOpen, typed]
  | value type => simp [observe, reportValue, typed]
  | merge other =>
      -- what is merged has a type as well, so nothing has been observed for it
      have unresolved : other.inferred = false := by
        by_contra inferred
        have isAuto := fits.1.asked (Bool.eq_true_of_not_eq_false inferred)
        rw [fits.2, typed] at isAuto
        cases isAuto
      simp [observe, reportMerge, unresolved]

/-- An open variable takes the first class that is observed. -/
theorem observe_open (isOpen : info.isOpen = true) (observation : Observation) :
    info.observe join observation =
      match observation.class? with
      | none => (info, false)
      | some type => (info.settle type, true) := by
  obtain ⟨isAuto, unresolved⟩ := Bool.and_eq_true_iff.mp isOpen
  rw [Bool.not_eq_true'] at unresolved
  cases observation with
  | hint type =>
      cases concrete : type.isConcrete <;>
        simp [observe, reportHint, isOpen, Observation.class?, TypeId.expected?, concrete]
  | value type =>
      cases concrete : type.isConcrete <;>
        simp [observe, reportValue, isAuto, unresolved, Observation.class?, TypeId.expected?, concrete]
  | merge other =>
      cases inferred : other.inferred <;>
        simp [observe, reportMerge, unresolved, Observation.class?, inferred]

/-- A variable that has a class is widened by the others that are observed, unless they are only expected. -/
theorem observe_inferred (regular : info.Regular hierarchy) (inferred : info.inferred = true)
    (fits : observation.Fits hierarchy (Regular hierarchy) info.auto) :
    info.observe hierarchy.union observation =
      match observation.widening? with
      | none => (info, false)
      | some type =>
          ({ info with type := hierarchy.union info.type type }, hierarchy.union info.type type != info.type) := by
  have isAuto := regular.asked inferred
  cases observation with
  | hint type => simp [observe, reportHint, isOpen, inferred, Observation.widening?]
  | value type =>
      cases concrete : type.isConcrete <;>
        simp [observe, reportValue, isAuto, inferred, Observation.widening?, Observation.class?, TypeId.expected?,
          concrete]
  | merge other =>
      cases inferred' : other.inferred with
      | false => simp [observe, reportMerge, inferred, inferred', Observation.widening?, Observation.class?]
      | true =>
          have concrete := (fits.1.isClass inferred').concrete
          simp [observe, reportMerge, reportValue, isAuto, inferred, inferred', concrete, Observation.widening?,
            Observation.class?]

/-! ### What an observation says -/

/-- Whatever an observation says, it leaves what inference makes of the variable. -/
theorem observe_fst (join : TypeId → TypeId → TypeId) (info : Variable) (observation : Observation) :
    (info.observe join observation).1 = info.learn join observation := by
  have ofValue (type : TypeId) : (info.reportValue join type).1 = info.observeValue join type := by
    unfold reportValue observeValue
    cases info.inferred <;> split <;> rfl
  cases observation with
  | hint type =>
      rw [observe, reportHint, learn, observeHint]
      cases info.isOpen <;> cases type.isConcrete <;> rfl
  | value type => exact ofValue type
  | merge other =>
      rw [observe, reportMerge, learn, merge]
      cases info.inferred <;> cases other.inferred
      · rfl
      · rfl
      · rfl
      · exact ofValue other.type

theorem observe_snd_iff (regular : info.Regular hierarchy)
    (fits : observation.Fits hierarchy (Regular hierarchy) info.auto) :
    (info.observe hierarchy.union observation).2 = true ↔ (info.observe hierarchy.union observation).1 ≠ info := by
  cases isAuto : info.auto with
  | false => simp [observe_declared isAuto fits]
  | true =>
      cases inferred : info.inferred with
      | false =>
          rw [observe_open (by rw [isOpen, isAuto, inferred]; rfl)]
          split
          · simp
          · have changed (type : TypeId) : info.settle type ≠ info := by
              intro same
              have settled : info.inferred = true := same ▸ rfl
              rw [inferred] at settled
              cases settled
            simp [changed]
      | true =>
          rw [observe_inferred regular inferred fits]
          split
          · simp
          · have same (type : TypeId) : { info with type := type } = info ↔ type = info.type :=
              ⟨fun same => congrArg Variable.type same, fun same => by rw [same]⟩
            rw [bne_iff_ne, ne_eq, ne_eq, same]

theorem observe_eq (regular : info.Regular hierarchy)
    (fits : observation.Fits hierarchy (Regular hierarchy) info.auto) :
    info.observe hierarchy.union observation =
      (info.learn hierarchy.union observation, decide (info.learn hierarchy.union observation ≠ info)) := by
  rw [← observe_fst]
  have changes := observe_snd_iff regular fits
  exact Prod.ext rfl (Bool.eq_iff_iff.mpr (changes.trans decide_eq_true_iff.symm))

theorem auto_observeValue (join : TypeId → TypeId → TypeId) (info : Variable) (type : TypeId) :
    (info.observeValue join type).auto = info.auto := by
  unfold observeValue
  split
  · rfl
  · split <;> rfl

theorem auto_observe (join : TypeId → TypeId → TypeId) (info : Variable) (observation : Observation) :
    (info.observe join observation).1.auto = info.auto := by
  rw [observe_fst]
  cases observation with
  | hint type =>
      rw [learn, observeHint]
      split <;> rfl
  | value type => exact auto_observeValue _ info type
  | merge other =>
      rw [learn, merge]
      split
      · rfl
      · split
        · exact auto_observeValue _ info other.type
        · rfl

theorem Reached.observe (reached : info.Reached hierarchy)
    (fits : observation.Fits hierarchy (Reached hierarchy) info.auto) :
    (info.observe hierarchy.union observation).1.Reached hierarchy := by
  cases observation with
  | hint type => exact .hint reached fits
  | value type => exact .value reached fits
  | merge other => exact .merge reached fits.1 fits.2

/-! ### Runs -/

theorem observeAll_append (join : TypeId → TypeId → TypeId) (info : Variable) (front back : List Observation) :
    info.observeAll join (front ++ back) =
      let first := info.observeAll join front
      let second := first.1.observeAll join back
      (second.1, first.2 ++ second.2) := by
  induction front generalizing info with
  | nil => rfl
  | cons observation front ih => simp only [List.cons_append, observeAll, ih]

theorem Reached.observeAll (reached : info.Reached hierarchy) {observations : List Observation}
    (fit : ∀ observation ∈ observations, observation.Fits hierarchy (Reached hierarchy) info.auto) :
    (info.observeAll hierarchy.union observations).1.Reached hierarchy := by
  induction observations generalizing info with
  | nil => exact reached
  | cons observation observations ih =>
      obtain ⟨fits, fit⟩ := List.forall_mem_cons.mp fit
      apply ih (reached.observe fits)
      rw [auto_observe]
      exact fit

/-- Observations of which none changes a variable leave it together as it is. -/
theorem observeAll_idle {observations : List Observation}
    (idle : ∀ observation ∈ observations, info.observe join observation = (info, false)) :
    info.observeAll join observations = (info, observations.map fun _ => false) := by
  induction observations with
  | nil => rfl
  | cons observation observations ih =>
      obtain ⟨first, others⟩ := List.forall_mem_cons.mp idle
      simp only [Variable.observeAll, first, ih others, List.map_cons]

theorem isOpen_declared {name : String} (isAuto : type = .autoType) : (declared name type).isOpen = true :=
  isAuto ▸ rfl

/-- An open variable waits as long as no class is observed. -/
theorem observeAll_waits {observations : List Observation} (isOpen : info.isOpen = true)
    (nothing : ∀ observation ∈ observations, observation.class? = none) :
    info.observeAll join observations = (info, observations.map fun _ => false) := by
  refine observeAll_idle fun observation member => ?_
  rw [observe_open isOpen, nothing observation member]

section

variable (treelike : hierarchy.Treelike)
include treelike

theorem observe_regular (regular : info.Regular hierarchy)
    (fits : observation.Fits hierarchy (Regular hierarchy) info.auto) :
    (info.observe hierarchy.union observation).1.Regular hierarchy := by
  cases isAuto : info.auto with
  | false =>
      rw [observe_declared isAuto fits]
      exact regular
  | true =>
      cases inferred : info.inferred with
      | false =>
          rw [observe_open (by rw [isOpen, isAuto, inferred]; rfl)]
          split
          · exact regular
          · exact regular_of_inferred rfl isAuto (isClass_of_class? fits ‹_›)
      | true =>
          rw [observe_inferred regular inferred fits]
          split
          · exact regular
          · have isClass := isClass_of_class? fits (Observation.class?_of_widening? ‹_›)
            exact regular_of_inferred inferred isAuto
              (treelike.union_isLeast (regular.isClass inferred) isClass).isClass

theorem Reached.regular (reached : info.Reached hierarchy) : info.Regular hierarchy := by
  induction reached with
  | declared name type => exact declared_regular name type
  | hint _ known ih => exact observe_regular treelike ih known
  | value _ known ih => exact observe_regular treelike ih known
  | merge _ _ alike ih ih' => exact observe_regular treelike ih ⟨ih', alike⟩

/-- A variable that has the least upper bound of some classes is widened to that of all. -/
theorem observeAll_joins {types : List TypeId} {observations : List Observation} (regular : info.Regular hierarchy)
    (inferred : info.inferred = true) (joins : hierarchy.Joins types info.type)
    (fit : ∀ observation ∈ observations, observation.Fits hierarchy (Regular hierarchy) info.auto) :
    let last := (info.observeAll hierarchy.union observations).1
    last.inferred = true ∧ hierarchy.Joins (types ++ observations.filterMap Observation.widening?) last.type := by
  induction observations generalizing info types with
  | nil => exact ⟨inferred, by simpa [Variable.observeAll] using joins⟩
  | cons observation observations ih =>
      obtain ⟨fits, fit⟩ := List.forall_mem_cons.mp fit
      have regular' := observe_regular treelike regular fits
      rw [← auto_observe hierarchy.union info observation] at fit
      rw [Variable.observeAll]
      dsimp only
      rw [List.filterMap_cons]
      have observed := observe_inferred regular inferred fits
      cases widens : observation.widening? with
      | none =>
          rw [widens] at observed
          rw [observed] at regular' fit ⊢
          exact ih regular' inferred joins fit
      | some type =>
          rw [widens] at observed
          rw [observed] at regular' fit ⊢
          have isClass := isClass_of_class? fits (Observation.class?_of_widening? widens)
          have all := ih regular' inferred (treelike.joins_snoc joins isClass) fit
          rwa [List.append_assoc] at all

/-! ### Two views of one declaration -/

omit treelike in
/-- Where two views agree, neither learns from the other. -/
theorem observe_of_agree (regular : info.Regular hierarchy) (regular' : other.Regular hierarchy)
    (alike : other.auto = info.auto) (inferred : other.inferred = info.inferred) (type : other.type = info.type) :
    info.observe hierarchy.union (.merge other) = (info, false) := by
  cases isKnown : info.inferred with
  | false => simp [Variable.observe, reportMerge, inferred, isKnown]
  | true =>
      have fits : (Observation.merge other).Fits hierarchy (Regular hierarchy) info.auto := ⟨regular', alike⟩
      have widens : (Observation.merge other).widening? = some info.type := by
        simp only [Observation.widening?, Observation.class?, inferred, isKnown, if_pos, type]
      rw [observe_inferred regular isKnown fits, widens]
      dsimp only
      rw [(regular.isClass isKnown).union_self, bne_self_eq_false]

/-- Two views that have taken over from each other in turn agree. -/
theorem agree_of_merges (regular : info.Regular hierarchy) (regular' : other.Regular hierarchy)
    (isAuto : info.auto = true) (isAuto' : other.auto = true) :
    let first := (info.observe hierarchy.union (.merge other)).1
    let second := (other.observe hierarchy.union (.merge first)).1
    second.inferred = first.inferred ∧ second.type = first.type := by
  cases inferred : info.inferred <;> cases inferred' : other.inferred
  · have waits := regular.waits (by rw [isOpen, isAuto, inferred]; rfl)
    have waits' := regular'.waits (by rw [isOpen, isAuto', inferred']; rfl)
    simp [observe_fst, learn, merge, inferred, inferred', waits, waits']
  · have concrete := (regular'.isClass inferred').concrete
    have same := (regular'.isClass inferred').union_self
    simp [observe_fst, learn, merge, settle, observeValue, inferred, inferred', isAuto', concrete, same]
  · simp [observe_fst, learn, merge, settle, inferred, inferred']
  · have isClass := regular.isClass inferred
    have isClass' := regular'.isClass inferred'
    have joins := treelike.union_isLeast isClass isClass'
    have same := treelike.union_of_conforms (joins.above _ (List.mem_cons_of_mem _ List.mem_cons_self))
    simp [observe_fst, learn, merge, observeValue, inferred, inferred', isAuto, isAuto', isClass'.concrete,
      joins.isClass.concrete, same]

theorem idle_of_merges (regular : info.Regular hierarchy) (regular' : other.Regular hierarchy)
    (isAuto : info.auto = true) (isAuto' : other.auto = true) :
    let first := (info.observe hierarchy.union (.merge other)).1
    let second := (other.observe hierarchy.union (.merge first)).1
    second.type = first.type ∧ first.observe hierarchy.union (.merge second) = (first, false) ∧
      second.observe hierarchy.union (.merge first) = (second, false) := by
  intro first second
  obtain ⟨inferred, type⟩ : second.inferred = first.inferred ∧ second.type = first.type :=
    agree_of_merges treelike regular regular' isAuto isAuto'
  have auto : first.auto = true := (auto_observe _ info _).trans isAuto
  have auto' : second.auto = true := (auto_observe _ other _).trans isAuto'
  have alike := auto'.trans auto.symm
  have fits : (Observation.merge other).Fits hierarchy (Regular hierarchy) info.auto :=
    ⟨regular', isAuto'.trans isAuto.symm⟩
  have ofFirst : first.Regular hierarchy := observe_regular treelike regular fits
  have fits' : (Observation.merge first).Fits hierarchy (Regular hierarchy) other.auto :=
    ⟨ofFirst, auto.trans isAuto'.symm⟩
  have ofSecond : second.Regular hierarchy := observe_regular treelike regular' fits'
  exact ⟨type, observe_of_agree ofFirst ofSecond alike inferred type,
    observe_of_agree ofSecond ofFirst alike.symm inferred.symm type.symm⟩

end

/-- In a hierarchy whose classes are a tree, observations of a variable follow one pattern, whatever their order
and whatever other variables are merged that have come about in the same way. A declaration with a type stays
as it is. One whose type is to be inferred does so until a class is observed, which becomes its type; from then
on hints change nothing, and its type is the least upper bound of that class and of all that have been observed
or merged since. Each observation says whether it has changed the variable, which is what inference would
find by comparing. Two variables to be inferred that have merged each other in turn have the same type and
learn nothing more from each other. -/
theorem observations_join (treelike : hierarchy.Treelike) :
    (∀ (name : String) (type : TypeId) (observations : List Observation),
      (∀ observation ∈ observations, observation.Fits hierarchy (Reached hierarchy) (declared name type).auto) →
      let last := (declared name type).observeAll hierarchy.union observations
      last.1.Reached hierarchy ∧
      (type ≠ .autoType → last = (declared name type, observations.map fun _ => false)) ∧
      (type = .autoType →
        ((∀ observation ∈ observations, observation.class? = none) →
          last = (declared name type, observations.map fun _ => false)) ∧
        ∀ front observation back first, observations = front ++ observation :: back →
          (∀ early ∈ front, early.class? = none) → observation.class? = some first →
          (declared name type).observeAll hierarchy.union (front ++ [observation]) =
            ((declared name type).settle first, (front.map fun _ => false) ++ [true]) ∧
          last.1.inferred = true ∧
          hierarchy.Joins (first :: back.filterMap Observation.widening?) last.1.type)) ∧
    (∀ (info : Variable) (observation : Observation), info.Reached hierarchy →
      observation.Fits hierarchy (Reached hierarchy) info.auto →
      info.observe hierarchy.union observation =
        (info.learn hierarchy.union observation, decide (info.learn hierarchy.union observation ≠ info))) ∧
    (∀ (info : Variable) (type : TypeId), info.Reached hierarchy → info.inferred = true →
      info.observe hierarchy.union (.hint type) = (info, false)) ∧
    ∀ info other : Variable, info.Reached hierarchy → other.Reached hierarchy →
      info.auto = true → other.auto = true →
      let first := (info.observe hierarchy.union (.merge other)).1
      let second := (other.observe hierarchy.union (.merge first)).1
      first.type = second.type ∧ first.observe hierarchy.union (.merge second) = (first, false) ∧
        second.observe hierarchy.union (.merge first) = (second, false) := by
  have regular (info : Variable) (reached : info.Reached hierarchy) : info.Regular hierarchy :=
    reached.regular treelike
  refine ⟨fun name type observations fit => ?_, fun info observation reached fits =>
    observe_eq (regular info reached) (fits.mono regular), fun info type _ inferred => ?_,
    fun info other reached reached' isAuto isAuto' => ?_⟩
  · have fit (observation : Observation) (member : observation ∈ observations) :=
      (fit observation member).mono regular
    refine ⟨(Reached.declared name type).observeAll ‹_›, fun typed => ?_, fun isAuto => ⟨fun nothing => ?_,
      fun front observation back first split nothing isFirst => ?_⟩⟩
    · exact observeAll_idle fun observation member => observe_declared (beq_false_of_ne typed) (fit observation member)
    · exact observeAll_waits (isOpen_declared isAuto) nothing
    · subst split
      obtain ⟨fits, fit⟩ := List.forall_mem_cons.mp (List.forall_mem_append.mp fit).2
      have isClass := isClass_of_class? fits isFirst
      have isOpen : (declared name type).isOpen = true := isOpen_declared isAuto
      have waited : (declared name type).observeAll hierarchy.union front = _ := observeAll_waits isOpen nothing
      have settled : (declared name type).observe hierarchy.union observation = _ := observe_open isOpen observation
      rw [isFirst] at settled
      have settledRegular : ((declared name type).settle first).Regular hierarchy :=
        regular_of_inferred rfl (isAuto ▸ rfl) isClass
      constructor
      · rw [observeAll_append, waited]
        simp only [observeAll, settled]
      · rw [observeAll_append, waited]
        simp only [observeAll, settled]
        exact observeAll_joins treelike settledRegular rfl isClass.joins_self fit
  · rw [observe, reportHint, isOpen_of_inferred inferred]
    rfl
  · obtain ⟨type, idle⟩ := idle_of_merges treelike (regular info reached) (regular other reached') isAuto isAuto'
    exact ⟨type.symm, idle⟩

/-- A class and two that inherit from it. -/
def siblings : Hierarchy :=
  let decl (name : String) (parent : Option Ident) : ClassDecl := ⟨⟨name, .first⟩, parent, [], .first⟩
  let program : Program := ⟨[decl "A" none, decl "B" (some ⟨"A", .first⟩), decl "C" (some ⟨"A", .first⟩)]⟩
  ((Hierarchy.initial.collect program).1.build program (Hierarchy.initial.collect program).2.1).1

/-- A variable is expected to have one of the two classes, and another view of it has a value of the other. -/
theorem observations_join_siblings :
    let unknown := declared "x" .autoType
    let ofC := (unknown.observe siblings.union (.value ⟨10⟩)).1
    let ofB := (unknown.observe siblings.union (.hint ⟨9⟩)).1
    let seen : List Observation := [.merge unknown, .hint ⟨9⟩, .hint .string, .merge ofC, .value ⟨9⟩]
    siblings.Treelike ∧
    (declared "x" .int).observeAll siblings.union [.value .string] = (declared "x" .int, [false]) ∧
    siblings.Joins [⟨9⟩, ⟨10⟩, ⟨9⟩] (unknown.observeAll siblings.union seen).1.type ∧
    unknown.observeAll siblings.union seen = (unknown.settle ⟨8⟩, [false, true, false, true, false]) ∧
    ofB.observe siblings.union (.value ⟨10⟩) = (unknown.settle ⟨8⟩, true) ∧
    ofB.observe siblings.union (.hint ⟨10⟩) = (ofB, false) ∧
    (let first := (ofB.observe siblings.union (.merge ofC)).1
      let second := (ofC.observe siblings.union (.merge first)).1
      first.type = second.type ∧ first.observe siblings.union (.merge second) = (first, false)) := by
  intro unknown ofC ofB seen
  have treelike : siblings.Treelike := Hierarchy.treelike_build _
  have many : 10 < siblings.types.size := by decide +kernel
  have reached : unknown.Reached siblings := .declared "x" .autoType
  have reachedB : ofB.Reached siblings := .hint reached (Nat.lt_of_succ_lt many)
  have reachedC : ofC.Reached siblings := .value reached many
  obtain ⟨runs, changes, hints, merges⟩ := observations_join treelike
  have fit : ∀ observation ∈ seen, observation.Fits siblings (Reached siblings) unknown.auto := by
    simp only [seen, List.forall_mem_cons]
    exact ⟨⟨reached, rfl⟩, Nat.lt_of_succ_lt many, Nat.lt_of_le_of_lt (by decide) many, ⟨reachedC, rfl⟩,
      Nat.lt_of_succ_lt many, nofun⟩
  have fitInt : ∀ observation ∈ [Observation.value .string],
      observation.Fits siblings (Reached siblings) (declared "x" .int).auto :=
    List.forall_mem_singleton.mpr (Nat.lt_of_le_of_lt (by decide) many)
  obtain ⟨_, _, joins⟩ := ((runs "x" .autoType seen fit).2.2 rfl).2 [.merge unknown] (.hint ⟨9⟩) _ ⟨9⟩ rfl
    (List.forall_mem_singleton.mpr rfl) rfl
  have agree := merges ofB ofC reachedB reachedC rfl rfl
  exact ⟨treelike, (runs "x" .int _ fitInt).2.1 (by decide), joins, by decide +kernel,
    (changes ofB (.value ⟨10⟩) reachedB many).trans (by decide +kernel), hints ofB ⟨10⟩ reachedB rfl, agree.1, agree.2.1⟩

end Variable

end CoolLang
