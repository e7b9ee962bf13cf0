import CoolLang.Proofs.Grammar.Following
import CoolLang.Proofs.Grammar.Rounds

/-!
The computed FOLLOW sets are exact: the set of a nonterminal holds the terminals that follow it. A round
is a fold over the occurrences of nonterminals in right-hand sides, in order (`propagate_eq_foldl`), so
what holds of one occurrence carries over to rounds and to the fixed point. With the reading of
following by derivations this makes `FollowSets.follow_iff_derives`.
-/

namespace CoolLang

variable {α : Type} {grammar : Grammar α}

/-- A nonterminal in a right-hand side of a rule for `left`, with `after` behind it. -/
structure Occurrence where
  nonterminal : Nonterminal
  left : Nonterminal
  after : List Symbol

namespace Occurrence

/-- The occurrences in a right-hand side, from left to right. -/
def inRight (left : Nonterminal) : List Symbol → List Occurrence
  | [] => []
  | .terminal _ :: rest => inRight left rest
  | .nonterminal nonterminal :: rest => ⟨nonterminal, left, rest⟩ :: inRight left rest

theorem mem_inRight {occurrence : Occurrence} {left : Nonterminal} {right : List Symbol} :
    occurrence ∈ inRight left right ↔ left = occurrence.left ∧
      ∃ before, right = before ++ .nonterminal occurrence.nonterminal :: occurrence.after := by
  induction right with
  | nil => simp [inRight]
  | cons symbol rest ih =>
      have split : (∃ before, symbol :: rest =
            before ++ .nonterminal occurrence.nonterminal :: occurrence.after) ↔
          .nonterminal occurrence.nonterminal = symbol ∧ occurrence.after = rest ∨
            ∃ before, rest = before ++ .nonterminal occurrence.nonterminal :: occurrence.after := by
        simp [List.cons_eq_append_iff, exists_or]
      rw [split]
      cases symbol with
      | terminal terminal => simp [inRight, ih]
      | nonterminal nonterminal =>
          obtain ⟨other, otherLeft, after⟩ := occurrence
          simp only [inRight, List.mem_cons, ih, mk.injEq, Symbol.nonterminal.injEq,
            and_or_left, eq_comm, and_left_comm]

end Occurrence

def Grammar.occurrences (grammar : Grammar α) : List Occurrence :=
  grammar.rules.flatMap fun rule => Occurrence.inRight rule.left rule.right

theorem Grammar.mem_occurrences {occurrence : Occurrence} :
    occurrence ∈ grammar.occurrences ↔
      grammar.Occurs occurrence.nonterminal occurrence.left occurrence.after := by
  simp only [occurrences, List.mem_flatMap, Occurrence.mem_inRight, Occurs, rule?]
  constructor
  · rintro ⟨rule, member, left, before, right⟩
    obtain ⟨number, known⟩ := List.getElem?_of_mem member
    exact ⟨number, rule, before, known, left, right⟩
  · rintro ⟨number, rule, before, known, left, right⟩
    exact ⟨rule, List.mem_of_getElem? known, left, before, right⟩

namespace FollowSets

/-! ### Rounds as folds -/

def absorb (firsts : FirstSets) (follow : FollowSets) (occurrence : Occurrence) : FollowSets :=
  follow.add occurrence.nonterminal
    (firsts.ofStringThen occurrence.after ((follow.get? occurrence.left).getD ∅))

theorem absorbRight_eq_foldl (firsts : FirstSets) (left : Nonterminal) (right : List Symbol)
    (follow : FollowSets) :
    absorbRight firsts left right follow =
      (Occurrence.inRight left right).foldl (absorb firsts) follow := by
  induction right generalizing follow with
  | nil => rfl
  | cons symbol rest ih =>
      cases symbol with
      | terminal terminal => exact ih follow
      | nonterminal nonterminal => exact ih (absorb firsts follow ⟨nonterminal, left, rest⟩)

theorem propagate_eq_foldl (grammar : Grammar α) (firsts : FirstSets) (follow : FollowSets) :
    propagate grammar firsts follow = grammar.occurrences.foldl (absorb firsts) follow := by
  rw [propagate, Grammar.occurrences, List.foldl_flatMap]
  simp only [absorbRight_eq_foldl]

/-! ### Order -/

def Included (inner outer : FollowSets) : Prop :=
  List.Forall₂ TerminalSet.Included inner.sets outer.sets

namespace Included

theorem refl (follow : FollowSets) : follow.Included follow :=
  List.forall₂_same.mpr fun set _ => .refl set

theorem trans {first second third : FollowSets} (lower : first.Included second)
    (upper : second.Included third) : first.Included third :=
  forall₂_trans .trans lower upper

theorem antisymm {first second : FollowSets} (lower : first.Included second)
    (upper : second.Included first) : first = second :=
  congrArg FollowSets.mk (forall₂_antisymm TerminalSet.Included.antisymm lower upper)

theorem get? {inner outer : FollowSets} (included : inner.Included outer) {nonterminal : Nonterminal}
    {set : TerminalSet} (found : inner.get? nonterminal = some set) :
    ∃ larger, outer.get? nonterminal = some larger ∧ set.Included larger := by
  obtain ⟨inRange, rfl⟩ := List.getElem?_eq_some_iff.mp found
  have inRange' : nonterminal < outer.sets.length := included.length_eq ▸ inRange
  exact ⟨_, List.getElem?_eq_getElem inRange', included.get inRange inRange'⟩

end Included

theorem included_absorb (firsts : FirstSets) (follow : FollowSets) (occurrence : Occurrence) :
    follow.Included (absorb firsts follow occurrence) :=
  forall₂_modify .refl (fun set => set.included_union_left _) _ _

theorem included_propagate (grammar : Grammar α) (firsts : FirstSets) (follow : FollowSets) :
    follow.Included (propagate grammar firsts follow) := by
  rw [propagate_eq_foldl]
  exact below_foldl .refl .trans (included_absorb firsts) grammar.occurrences follow

/-! ### The growth that a round reports -/

private def report (firsts : FirstSets) (current : FollowSets × Bool) (occurrence : Occurrence) :
    FollowSets × Bool :=
  let after := firsts.ofStringThen occurrence.after ((current.1.get? occurrence.left).getD ∅)
  let (sets, grown) := absorbAt TerminalSet.absorb current.1.sets occurrence.nonterminal after
  (⟨sets⟩, current.2 || grown)

private theorem report_eq (firsts : FirstSets) (follow : FollowSets) (grown : Bool)
    (occurrence : Occurrence) :
    report firsts (follow, grown) occurrence =
      (absorb firsts follow occurrence, grown || decide (absorb firsts follow occurrence ≠ follow)) := by
  obtain ⟨sets⟩ := follow
  simp only [report, absorbAt_eq TerminalSet.absorb_eq, absorb, add, ne_eq, mk.injEq]

private theorem reportRight_eq_foldl (firsts : FirstSets) (left : Nonterminal) (right : List Symbol)
    (current : FollowSets × Bool) :
    reportRight firsts left right current =
      (Occurrence.inRight left right).foldl (report firsts) current := by
  induction right generalizing current with
  | nil => rfl
  | cons symbol rest ih =>
      cases symbol with
      | terminal terminal => exact ih current
      | nonterminal nonterminal => exact ih (report firsts current ⟨nonterminal, left, rest⟩)

theorem reportRound_eq (grammar : Grammar α) (firsts : FirstSets) (follow : FollowSets) :
    reportRound grammar firsts follow =
      (propagate grammar firsts follow, decide (propagate grammar firsts follow ≠ follow)) := by
  have folded : reportRound grammar firsts follow =
      grammar.occurrences.foldl (report firsts) (follow, false) := by
    rw [reportRound, Grammar.occurrences, List.foldl_flatMap]
    simp only [reportRight_eq_foldl]
  rw [folded, propagate_eq_foldl, foldl_reports .refl .trans Included.antisymm
    (included_absorb firsts) (report_eq firsts), Bool.false_or]

/-! ### The last stage is a fixed point -/

structure Sized (grammar : Grammar α) (follow : FollowSets) : Prop where
  length : follow.sets.length = grammar.nonterminals.length
  within : ∀ set ∈ follow.sets, set.Within grammar

theorem Sized.exists_get? {follow : FollowSets} (sized : follow.Sized grammar)
    {nonterminal : Nonterminal} (declared : grammar.Declared (.nonterminal nonterminal)) :
    ∃ set, follow.get? nonterminal = some set :=
  ⟨_, List.getElem?_eq_getElem (sized.length ▸ declared)⟩

/-- A nonterminal without a set counts as one with an empty set. -/
theorem exists_get?_of_mem {follow : FollowSets} {nonterminal : Nonterminal} {terminal : Terminal}
    (member : terminal ∈ (follow.get? nonterminal).getD ∅) :
    ∃ set, follow.get? nonterminal = some set ∧ terminal ∈ set := by
  cases found : follow.get? nonterminal with
  | none =>
      rw [found] at member
      exact absurd member (TerminalSet.not_mem_empty terminal)
  | some set =>
      rw [found] at member
      exact ⟨set, rfl, member⟩

theorem Sized.initial (wellFormed : grammar.WellFormed) : (initial grammar).Sized grammar where
  length := by rw [FollowSets.initial, List.length_map, List.length_zipIdx]
  within := by
    intro set member
    obtain ⟨⟨name, nonterminal⟩, _, rfl⟩ := List.mem_map.mp member
    intro terminal inSet
    dsimp only at inSet
    split at inSet
    · rw [TerminalSet.mem_singleton.mp inSet]
      exact wellFormed.eoi_declared
    · exact absurd inSet (TerminalSet.not_mem_empty terminal)

theorem Sized.absorb {follow : FollowSets} (sized : follow.Sized grammar) {firsts : FirstSets}
    (firstsSized : firsts.Sized grammar) (occurrence : Occurrence) :
    (FollowSets.absorb firsts follow occurrence).Sized grammar where
  length := by
    rw [FollowSets.absorb, add, List.length_modify]
    exact sized.length
  within := by
    intro set member
    rcases eq_or_eq_change_of_mem_modify member with old | ⟨old, present, rfl⟩
    · exact sized.within set old
    · refine (sized.within old present).union ?_
      intro terminal inAfter
      rcases FirstSets.mem_ofStringThen.mp inAfter with inFirst | ⟨_, inLeft⟩
      · exact firstsSized.ofString_within _ terminal inFirst
      · obtain ⟨known, found, member⟩ := exists_get?_of_mem inLeft
        exact sized.within known (List.mem_of_getElem? found) terminal member

theorem Sized.propagate {follow : FollowSets} (sized : follow.Sized grammar) {firsts : FirstSets}
    (firstsSized : firsts.Sized grammar) :
    (FollowSets.propagate grammar firsts follow).Sized grammar := by
  rw [propagate_eq_foldl]
  exact foldl_preserves (fun current : FollowSets => current.Sized grammar)
    (fun _ occurrence _ current => current.absorb firstsSized occurrence) sized

private def holds (follow : FollowSets) (fact : Nonterminal × Terminal) : Bool :=
  (follow.get? fact.1).any (·.contains fact.2)

private theorem determined {first second : FollowSets} (sized : first.Sized grammar)
    (sized' : second.Sized grammar)
    (agree : ∀ fact ∈ Finset.range grammar.nonterminals.length ×ˢ Finset.range grammar.terminals.length,
      holds first fact = holds second fact) : first = second := by
  apply congrArg FollowSets.mk
  apply List.ext_getElem (sized.length.trans sized'.length.symm)
  intro place inFirst inSecond
  have checked : ∀ terminal < grammar.terminals.length,
      (terminal ∈ first.sets[place] ↔ terminal ∈ second.sets[place]) := by
    intro terminal declared
    have same := agree (place, terminal) (by
      rw [Finset.mem_product, Finset.mem_range, Finset.mem_range]
      exact ⟨sized.length ▸ inFirst, declared⟩)
    simp only [holds, get?, List.getElem?_eq_getElem inFirst, List.getElem?_eq_getElem inSecond,
      Option.any_some] at same
    exact Bool.eq_iff_iff.mp same
  ext terminal
  constructor
  · intro member
    exact (checked terminal (sized.within _ (List.getElem_mem inFirst) terminal member)).mp member
  · intro member
    exact (checked terminal (sized'.within _ (List.getElem_mem inSecond) terminal member)).mpr member

theorem propagate_compute (wellFormed : grammar.WellFormed) {firsts : FirstSets}
    (firstsSized : firsts.Sized grammar) :
    propagate grammar firsts (compute grammar firsts) = compute grammar firsts := by
  apply round_saturate_of_facts (propagate grammar firsts)
    (fun follow : FollowSets => follow.Sized grammar)
    (Finset.range grammar.nonterminals.length ×ˢ Finset.range grammar.terminals.length) holds
  · intro follow sized
    exact sized.propagate firstsSized
  · intro follow _ fact held
    obtain ⟨set, found, member⟩ := (Option.any_eq_true _ _).mp held
    obtain ⟨larger, found', included⟩ := (included_propagate grammar firsts follow).get? found
    exact (Option.any_eq_true _ _).mpr ⟨larger, found', included fact.2 member⟩
  · intro first second sized sized' agree
    exact determined sized sized' agree
  · exact .initial wellFormed
  · rw [Finset.card_product, Finset.card_range, Finset.card_range]
    exact Nat.le_refl _

theorem Sized.compute (wellFormed : grammar.WellFormed) {firsts : FirstSets}
    (firstsSized : firsts.Sized grammar) : (FollowSets.compute grammar firsts).Sized grammar :=
  saturate_preserves _ (fun follow : FollowSets => follow.Sized grammar)
    (fun _ sized => sized.propagate firstsSized) _ _ (.initial wellFormed)

theorem included_compute (grammar : Grammar α) (firsts : FirstSets) :
    (initial grammar).Included (compute grammar firsts) :=
  saturate_preserves _ (fun follow : FollowSets => (initial grammar).Included follow)
    (fun follow included => included.trans (included_propagate grammar firsts follow)) _ _
    (.refl _)

/-! ### No set holds too much -/

def Sound (grammar : Grammar α) (follow : FollowSets) : Prop :=
  ∀ nonterminal set, follow.get? nonterminal = some set →
    ∀ terminal ∈ set, grammar.Follows terminal nonterminal

private theorem get?_initial {nonterminal : Nonterminal}
    (declared : grammar.Declared (.nonterminal nonterminal)) :
    (initial grammar).get? nonterminal =
      some (if nonterminal = Nonterminal.augmented ∨ nonterminal = grammar.start then
        .singleton Terminal.eoi else ∅) := by
  rw [get?, initial, List.getElem?_map, List.getElem?_zipIdx, List.getElem?_eq_getElem declared]
  simp

theorem initial_sound (wellFormed : grammar.WellFormed) : (initial grammar).Sound grammar := by
  intro nonterminal set found terminal member
  have declared : grammar.Declared (.nonterminal nonterminal) := by
    have inRange := (List.getElem?_eq_some_iff.mp found).1
    rwa [(Sized.initial wellFormed).length] at inRange
  rw [get?_initial declared] at found
  cases found
  have ends : grammar.Follows Terminal.eoi Nonterminal.augmented := .start rfl
  split at member
  · rename_i isStart
    rw [TerminalSet.mem_singleton.mp member]
    rcases isStart with rfl | rfl
    · exact ends
    · exact .inherits ⟨RuleId.augmented, _, [], wellFormed.rule?_augmented, rfl, rfl⟩ .nil ends
  · exact absurd member (TerminalSet.not_mem_empty terminal)

theorem Sound.absorb (wellFormed : grammar.WellFormed) {follow : FollowSets}
    (sound : follow.Sound grammar) {occurrence : Occurrence}
    (occurs : grammar.Occurs occurrence.nonterminal occurrence.left occurrence.after) :
    (FollowSets.absorb (FirstSets.compute grammar) follow occurrence).Sound grammar := by
  have declared : ∀ symbol ∈ occurrence.after, grammar.Declared symbol := fun symbol member =>
    (occurs.usable wellFormed (List.mem_cons_of_mem _ member)).declared
  intro nonterminal set found terminal member
  simp only [FollowSets.absorb, add, get?, List.getElem?_modify] at found
  cases before : follow.sets[nonterminal]? with
  | none => rw [before] at found; cases found
  | some old =>
      rw [before] at found
      split at found
      · rename_i same
        subst same
        cases found
        rcases TerminalSet.mem_union.mp member with inOld | inAfter
        · exact sound _ old before terminal inOld
        · rcases (FirstSets.mem_ofStringThen_compute wellFormed declared).mp inAfter with
            begins | ⟨vanishes, inLeft⟩
          · exact .begins occurs begins
          · obtain ⟨left, known, inSet⟩ := exists_get?_of_mem inLeft
            exact .inherits occurs vanishes (sound occurrence.left left known terminal inSet)
      · cases found
        exact sound nonterminal old before terminal member

theorem compute_sound (wellFormed : grammar.WellFormed) :
    (compute grammar (FirstSets.compute grammar)).Sound grammar := by
  apply saturate_preserves _ (fun follow : FollowSets => follow.Sound grammar) _ _ _
    (initial_sound wellFormed)
  intro follow sound
  rw [propagate_eq_foldl]
  exact foldl_preserves (fun current : FollowSets => current.Sound grammar)
    (fun _ occurrence member current =>
      current.absorb wellFormed (Grammar.mem_occurrences.mp member)) sound

/-! ### Nothing is missing -/

/-- Sets to which no round adds anything. -/
structure Closed (grammar : Grammar α) (firsts : FirstSets) (follow : FollowSets) : Prop where
  start : ∃ set, follow.get? Nonterminal.augmented = some set ∧ Terminal.eoi ∈ set
  after : ∀ {nonterminal left : Nonterminal} {after : List Symbol},
    grammar.Occurs nonterminal left after →
      ∃ set leftSet, follow.get? nonterminal = some set ∧ follow.get? left = some leftSet ∧
        (firsts.ofStringThen after leftSet).Included set

theorem Closed.mem_of_follows {firsts : FirstSets} {follow : FollowSets}
    (closed : follow.Closed grammar firsts) (firstsClosed : firsts.Closed grammar)
    (counted : firsts.terminalCount = grammar.terminals.length) (wellFormed : grammar.WellFormed)
    {nonterminal : Nonterminal} {terminal : Terminal}
    (follows : grammar.Follows terminal nonterminal) :
    ∃ set, follow.get? nonterminal = some set ∧ terminal ∈ set := by
  induction follows with
  | start eoi =>
      rw [eoi]
      exact closed.start
  | begins occurs begins =>
      obtain ⟨set, leftSet, found, _, included⟩ := closed.after occurs
      refine ⟨set, found, included terminal (FirstSets.mem_ofStringThen.mpr (Or.inl ?_))⟩
      apply firstsClosed.mem_of_begins counted wellFormed begins
      intro symbol member
      exact (occurs.usable wellFormed (List.mem_cons_of_mem _ member)).declared
  | inherits occurs vanishes _ ih =>
      obtain ⟨set, leftSet, found, foundLeft, included⟩ := closed.after occurs
      -- what vanishes lets the set of the left side through
      obtain ⟨same, foundLeft', member⟩ := ih
      rw [foundLeft] at foundLeft'
      cases foundLeft'
      have ending := firstsClosed.epsilon_of_vanishes vanishes
      exact ⟨set, found, included terminal
        (FirstSets.mem_ofStringThen.mpr (Or.inr ⟨ending, member⟩))⟩

/-- Whether no round adds anything, by comparing sets. -/
def isClosed (grammar : Grammar α) (firsts : FirstSets) (follow : FollowSets) : Bool :=
  (follow.get? Nonterminal.augmented).any (·.contains Terminal.eoi) &&
    grammar.occurrences.all fun occurrence =>
      (follow.get? occurrence.nonterminal).any fun set =>
        (follow.get? occurrence.left).any fun left =>
          set.isSuperset (firsts.ofStringThen occurrence.after left)

theorem closed_of_isClosed {firsts : FirstSets} {follow : FollowSets}
    (checked : follow.isClosed grammar firsts = true) : follow.Closed grammar firsts := by
  rw [isClosed, Bool.and_eq_true, List.all_eq_true] at checked
  obtain ⟨start, occurrences⟩ := checked
  refine ⟨(Option.any_eq_true _ _).mp start, ?_⟩
  intro nonterminal left after occurs
  have passed := occurrences ⟨nonterminal, left, after⟩ (Grammar.mem_occurrences.mpr occurs)
  obtain ⟨set, found, passed⟩ := (Option.any_eq_true _ _).mp passed
  obtain ⟨leftSet, foundLeft, included⟩ := (Option.any_eq_true _ _).mp passed
  exact ⟨set, leftSet, found, foundLeft, TerminalSet.isSuperset_iff.mp included⟩

theorem compute_closed (wellFormed : grammar.WellFormed) {firsts : FirstSets}
    (firstsSized : firsts.Sized grammar) : (compute grammar firsts).Closed grammar firsts where
  start := by
    have declared : grammar.Declared (.nonterminal Nonterminal.augmented) :=
      wellFormed.left_lt wellFormed.rule?_augmented
    obtain ⟨set, found, included⟩ := (included_compute grammar firsts).get? (get?_initial declared)
    refine ⟨set, found, included Terminal.eoi ?_⟩
    rw [if_pos (Or.inl rfl)]
    exact TerminalSet.mem_singleton.mpr rfl
  after := by
    intro nonterminal left after occurs
    have sized := Sized.compute wellFormed firstsSized
    have declared := (occurs.usable wellFormed List.mem_cons_self).declared
    obtain ⟨set, found⟩ := sized.exists_get? declared
    obtain ⟨leftSet, foundLeft⟩ := sized.exists_get? (occurs.left_declared wellFormed)
    have fixed := propagate_compute wellFormed firstsSized
    rw [propagate_eq_foldl] at fixed
    have unchanged := foldl_fixed .refl .trans Included.antisymm (included_absorb firsts) fixed
      ⟨nonterminal, left, after⟩ (Grammar.mem_occurrences.mpr occurs)
    have place := congrArg (fun follow : FollowSets => follow.get? nonterminal) unchanged
    simp only [absorb, foundLeft, Option.getD_some, add] at place
    refine ⟨set, leftSet, found, foundLeft, ?_⟩
    simp only [get?] at place found
    rw [List.getElem?_modify_eq, found] at place
    exact TerminalSet.included_of_union_eq (Option.some.inj place)

theorem mem_compute_iff (wellFormed : grammar.WellFormed) {nonterminal : Nonterminal}
    {set : TerminalSet}
    (found : (compute grammar (FirstSets.compute grammar)).get? nonterminal = some set)
    {terminal : Terminal} : terminal ∈ set ↔ grammar.Follows terminal nonterminal := by
  constructor
  · exact compute_sound wellFormed nonterminal set found terminal
  · intro follows
    have firstsSized := FirstSets.Sized.compute grammar
    obtain ⟨same, found', member⟩ := (compute_closed wellFormed firstsSized).mem_of_follows
      (FirstSets.compute_closed wellFormed) firstsSized.terminalCount wellFormed follows
    rw [found] at found'
    cases found'
    exact member

/-- FOLLOW is derivability. The loop that computes the sets from the computed FIRST sets ends, and it
leaves a set for each nonterminal. A terminal other than the end of input is in it exactly if some
nonterminal, which need not be reachable, derives a string in which the terminal stands right after the
nonterminal; the end of input is in it exactly if `$start` derives a string that ends in the
nonterminal. -/
theorem follow_iff_derives {declarations : List (Declaration α)}
    (accepted : Grammar.ofDeclarations declarations = .ok grammar) :
    (∃ rounds ≤ roundLimit grammar,
        Repeats (reportRound grammar (FirstSets.compute grammar)) rounds (initial grammar)
          (compute grammar (FirstSets.compute grammar))) ∧
      ∀ nonterminal, grammar.Declared (.nonterminal nonterminal) →
        ∃ set, (compute grammar (FirstSets.compute grammar)).get? nonterminal = some set ∧
          (∀ terminal ≠ Terminal.eoi, terminal ∈ set ↔
            ∃ other, grammar.Declared (.nonterminal other) ∧ ∃ front back,
              grammar.Derives [.nonterminal other]
                (front ++ .nonterminal nonterminal :: .terminal terminal :: back)) ∧
          (Terminal.eoi ∈ set ↔
            ∃ front, grammar.Derives [.nonterminal Nonterminal.augmented]
              (front ++ [.nonterminal nonterminal])) := by
  have wellFormed := Grammar.wellFormed_of_declarations accepted
  have firstsSized := FirstSets.Sized.compute grammar
  constructor
  · exact exists_repeats (reportRound_eq grammar _) (propagate_compute wellFormed firstsSized)
  · intro nonterminal declared
    obtain ⟨set, found⟩ := (Sized.compute wellFormed firstsSized).exists_get? declared
    refine ⟨set, found, ?_, ?_⟩
    · intro terminal inside
      rw [mem_compute_iff wellFormed found]
      exact Grammar.follows_iff_derives wellFormed inside
    · rw [mem_compute_iff wellFormed found]
      exact Grammar.follows_eoi_iff_derives wellFormed

theorem follow_iff_derives_nested :
    (∃ other front back, Grammar.nested.Derives [.nonterminal other]
        (front ++ .nonterminal 1 :: .terminal 2 :: back)) ∧
      ∃ front, Grammar.nested.Derives [.nonterminal Nonterminal.augmented]
        (front ++ [.nonterminal 1]) := by
  obtain ⟨_, sets⟩ := follow_iff_derives Grammar.nested_accepted
  obtain ⟨set, found, inside, ends⟩ := sets 1 (by decide : 1 < 2)
  have computed : (compute Grammar.nested (FirstSets.compute Grammar.nested)).get? 1 =
      some (.ofList [0, 2]) := by
    decide +kernel
  rw [found] at computed
  cases computed
  constructor
  · obtain ⟨other, _, follows⟩ := (inside 2 (by decide)).mp (by decide)
    exact ⟨other, follows⟩
  · exact ends.mp (by decide)

end FollowSets

end CoolLang
