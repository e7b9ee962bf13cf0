import CoolLang.Grammar.First
import CoolLang.Proofs.Grammar.Beginning
import CoolLang.Proofs.Grammar.Declared
import CoolLang.Proofs.Grammar.Saturation

/-!
The computed FIRST sets are exact: of a string of declared symbols the set holds the terminals that
begin the string and the mark of the empty string exactly when the string vanishes. No stage of the
computation holds too much (`FirstSets.Sound`); the last one is a fixed point, so that every rule has
passed on all it has (`FirstSets.Closed`) and nothing is missing.
-/

namespace CoolLang

variable {α : Type}

/-! ### Order -/

namespace TerminalSet

def Included (inner outer : TerminalSet) : Prop :=
  ∀ terminal ∈ inner, terminal ∈ outer

/-- Whether all members of a set are among the terminals of a grammar. -/
def Within (set : TerminalSet) (grammar : Grammar α) : Prop :=
  ∀ terminal ∈ set, terminal < grammar.terminals.length

theorem Included.refl (set : TerminalSet) : set.Included set :=
  fun _ member => member

theorem Included.trans {first second third : TerminalSet} (lower : first.Included second)
    (upper : second.Included third) : first.Included third :=
  fun terminal member => upper terminal (lower terminal member)

theorem Included.antisymm {first second : TerminalSet} (lower : first.Included second)
    (upper : second.Included first) : first = second := by
  ext terminal
  exact ⟨lower terminal, upper terminal⟩

theorem included_union_left (left right : TerminalSet) : left.Included (left ∪ right) :=
  fun _ member => mem_union.mpr (Or.inl member)

theorem included_of_union_eq {left right : TerminalSet} (same : left ∪ right = left) :
    right.Included left := by
  rw [← same]
  exact fun _ member => mem_union.mpr (Or.inr member)

theorem Within.union {grammar : Grammar α} {left right : TerminalSet} (first : left.Within grammar)
    (second : right.Within grammar) : (left ∪ right).Within grammar := by
  intro terminal member
  exact (mem_union.mp member).elim (first terminal) (second terminal)

end TerminalSet

namespace FirstSet

def Included (inner outer : FirstSet) : Prop :=
  inner.terminals.Included outer.terminals ∧ (inner.epsilon = true → outer.epsilon = true)

theorem Included.refl (set : FirstSet) : set.Included set :=
  ⟨.refl set.terminals, id⟩

theorem Included.trans {first second third : FirstSet} (lower : first.Included second)
    (upper : second.Included third) : first.Included third :=
  ⟨lower.1.trans upper.1, fun epsilon => upper.2 (lower.2 epsilon)⟩

theorem Included.antisymm {first second : FirstSet} (lower : first.Included second)
    (upper : second.Included first) : first = second := by
  obtain ⟨terminals, epsilon⟩ := first
  obtain ⟨terminals', epsilon'⟩ := second
  have sameTerminals : terminals = terminals' := lower.1.antisymm upper.1
  have sameEpsilon : epsilon = epsilon' := Bool.eq_iff_iff.mpr ⟨lower.2, upper.2⟩
  rw [sameTerminals, sameEpsilon]

@[simp]
theorem terminals_union (left right : FirstSet) :
    (left ∪ right).terminals = left.terminals ∪ right.terminals := rfl

@[simp]
theorem epsilon_union (left right : FirstSet) :
    (left ∪ right).epsilon = (left.epsilon || right.epsilon) := rfl

theorem included_union_left (left right : FirstSet) : left.Included (left ∪ right) := by
  refine ⟨TerminalSet.included_union_left _ _, ?_⟩
  intro epsilon
  rw [epsilon_union, epsilon, Bool.true_or]

theorem included_of_union_eq {left right : FirstSet} (same : left ∪ right = left) :
    right.Included left := by
  refine ⟨TerminalSet.included_of_union_eq (congrArg FirstSet.terminals same), ?_⟩
  intro epsilon
  rw [← same, epsilon_union, epsilon, Bool.or_true]

end FirstSet

namespace FirstSets

structure Included (inner outer : FirstSets) : Prop where
  terminalCount : inner.terminalCount = outer.terminalCount
  nonterminals : List.Forall₂ FirstSet.Included inner.nonterminals outer.nonterminals
  rules : List.Forall₂ FirstSet.Included inner.rules outer.rules

namespace Included

theorem refl (sets : FirstSets) : sets.Included sets where
  terminalCount := rfl
  nonterminals := List.forall₂_same.mpr fun set _ => .refl set
  rules := List.forall₂_same.mpr fun set _ => .refl set

theorem trans {first second third : FirstSets} (lower : first.Included second)
    (upper : second.Included third) : first.Included third where
  terminalCount := lower.terminalCount.trans upper.terminalCount
  nonterminals := forall₂_trans .trans lower.nonterminals upper.nonterminals
  rules := forall₂_trans .trans lower.rules upper.rules

theorem antisymm {first second : FirstSets} (lower : first.Included second)
    (upper : second.Included first) : first = second := by
  obtain ⟨count, nonterminals, rules⟩ := first
  obtain ⟨count', nonterminals', rules'⟩ := second
  have sameCount : count = count' := lower.terminalCount
  have sameNonterminals : nonterminals = nonterminals' :=
    forall₂_antisymm FirstSet.Included.antisymm lower.nonterminals upper.nonterminals
  have sameRules : rules = rules' := forall₂_antisymm FirstSet.Included.antisymm lower.rules upper.rules
  rw [sameCount, sameNonterminals, sameRules]

end Included

theorem included_absorbRule (sets : FirstSets) (numbered : Rule α × RuleId) :
    sets.Included (sets.absorbRule numbered) where
  terminalCount := rfl
  nonterminals := forall₂_modify .refl (fun set => set.included_union_left _) _ _
  rules := forall₂_modify .refl (fun set => set.included_union_left _) _ _

/-- A round takes nothing away. -/
theorem included_propagate (grammar : Grammar α) (sets : FirstSets) :
    sets.Included (propagate grammar sets) :=
  below_foldl .refl .trans included_absorbRule grammar.numberedRules sets

/-! ### Strings -/

theorem ofString_cons_of_some {sets : FirstSets} {symbol : Symbol} {first : FirstSet}
    (found : sets.ofSymbol? symbol = some first) (rest : List Symbol) :
    (∀ terminal, terminal ∈ (sets.ofString (symbol :: rest)).terminals ↔
      terminal ∈ first.terminals ∨
        first.epsilon = true ∧ terminal ∈ (sets.ofString rest).terminals) ∧
    ((sets.ofString (symbol :: rest)).epsilon = true ↔
      first.epsilon = true ∧ (sets.ofString rest).epsilon = true) := by
  simp only [ofString, found]
  cases epsilon : first.epsilon <;> simp [epsilon]

theorem ofString_cons_of_none {sets : FirstSets} {symbol : Symbol}
    (missing : sets.ofSymbol? symbol = none) (rest : List Symbol) :
    sets.ofString (symbol :: rest) = ∅ := by
  simp only [ofString, missing]

theorem mem_ofStringThen {sets : FirstSets} {string : List Symbol} {lookaheads : TerminalSet}
    {terminal : Terminal} :
    terminal ∈ sets.ofStringThen string lookaheads ↔
      terminal ∈ (sets.ofString string).terminals ∨
        (sets.ofString string).epsilon = true ∧ terminal ∈ lookaheads := by
  simp only [ofStringThen]
  cases epsilon : (sets.ofString string).epsilon <;> simp

/-! ### No set holds too much -/

/-- What a set may hold if it is to stand for a string. -/
def SoundFor (grammar : Grammar α) (set : FirstSet) (string : List Symbol) : Prop :=
  (∀ terminal ∈ set.terminals, grammar.Begins terminal string) ∧
    (set.epsilon = true → grammar.Vanishes string)

def Sound (grammar : Grammar α) (sets : FirstSets) : Prop :=
  ∀ nonterminal set, sets.nonterminals[nonterminal]? = some set →
    SoundFor grammar set [.nonterminal nonterminal]

theorem SoundFor.empty (grammar : Grammar α) (string : List Symbol) :
    SoundFor grammar ∅ string :=
  ⟨fun terminal member => absurd member (TerminalSet.not_mem_empty terminal),
    fun impossible => by cases impossible⟩

theorem SoundFor.union {grammar : Grammar α} {left right : FirstSet} {string : List Symbol}
    (first : SoundFor grammar left string) (second : SoundFor grammar right string) :
    SoundFor grammar (left ∪ right) string := by
  constructor
  · intro terminal member
    rw [FirstSet.terminals_union, TerminalSet.mem_union] at member
    exact member.elim (first.1 terminal) (second.1 terminal)
  · intro epsilon
    rw [FirstSet.epsilon_union, Bool.or_eq_true] at epsilon
    exact epsilon.elim first.2 second.2

theorem Sound.ofSymbol? {grammar : Grammar α} {sets : FirstSets} (sound : sets.Sound grammar)
    {symbol : Symbol} {set : FirstSet} (found : sets.ofSymbol? symbol = some set) :
    SoundFor grammar set [symbol] := by
  cases symbol with
  | terminal terminal =>
      simp only [FirstSets.ofSymbol?] at found
      split at found
      · cases found
        constructor
        · intro other member
          rw [TerminalSet.mem_singleton.mp member]
          exact .terminal terminal []
        · intro impossible
          cases impossible
      · cases found
  | nonterminal nonterminal => exact sound nonterminal set found

theorem Sound.ofString {grammar : Grammar α} {sets : FirstSets} (sound : sets.Sound grammar)
    (string : List Symbol) : SoundFor grammar (sets.ofString string) string := by
  induction string with
  | nil =>
      exact ⟨fun terminal member => absurd member (TerminalSet.not_mem_empty terminal),
        fun _ => .nil⟩
  | cons symbol rest ih =>
      cases found : sets.ofSymbol? symbol with
      | none =>
          rw [ofString_cons_of_none found]
          exact .empty grammar _
      | some first =>
          obtain ⟨beginning, ending⟩ := sound.ofSymbol? found
          obtain ⟨members, epsilon⟩ := ofString_cons_of_some found rest
          constructor
          · intro terminal member
            rw [Grammar.Begins.cons_iff]
            rcases (members terminal).mp member with inFirst | ⟨empty, inRest⟩
            · exact Or.inl (beginning terminal inFirst)
            · exact Or.inr ⟨ending empty, ih.1 terminal inRest⟩
          · intro both
            rw [Grammar.Vanishes.cons_iff]
            exact ⟨ending (epsilon.mp both).1, ih.2 (epsilon.mp both).2⟩

theorem initial_sound (grammar : Grammar α) : (initial grammar).Sound grammar := by
  intro nonterminal set found
  simp only [initial, List.getElem?_map] at found
  cases named : grammar.nonterminals[nonterminal]? with
  | none => rw [named] at found; cases found
  | some name =>
      rw [named] at found
      cases found
      exact .empty grammar _

theorem Sound.absorbRule {grammar : Grammar α} {sets : FirstSets} (sound : sets.Sound grammar)
    {rule : Rule α} {number : RuleId} (known : grammar.rule? number = some rule) :
    (sets.absorbRule (rule, number)).Sound grammar := by
  intro nonterminal set found
  simp only [FirstSets.absorbRule, List.getElem?_modify] at found
  cases before : sets.nonterminals[nonterminal]? with
  | none => rw [before] at found; cases found
  | some old =>
      rw [before] at found
      have oldSound := sound nonterminal old before
      split at found
      · rename_i same
        cases found
        subst same
        obtain ⟨beginning, ending⟩ := sound.ofString rule.right
        refine oldSound.union ⟨?_, ?_⟩
        · intro terminal member
          exact .rule [] known (beginning terminal member)
        · intro epsilon
          exact .cons known (ending epsilon) .nil
      · cases found
        exact oldSound

theorem Sound.propagate {grammar : Grammar α} {sets : FirstSets} (sound : sets.Sound grammar) :
    (FirstSets.propagate grammar sets).Sound grammar := by
  apply foldl_preserves (fun current : FirstSets => current.Sound grammar) _ sound
  intro current numbered member currentSound
  exact currentSound.absorbRule (Grammar.mem_numberedRules.mp member)

theorem compute_sound (grammar : Grammar α) : (compute grammar).Sound grammar :=
  saturate_preserves _ (fun sets : FirstSets => sets.Sound grammar) (fun _ sound => sound.propagate) _ _
    (initial_sound grammar)

/-! ### The last stage is a fixed point -/

/-- What every stage of the computation keeps: a set for each nonterminal and each rule, within the
terminals of the grammar. -/
structure Sized (grammar : Grammar α) (sets : FirstSets) : Prop where
  terminalCount : sets.terminalCount = grammar.terminals.length
  nonterminals_length : sets.nonterminals.length = grammar.nonterminals.length
  rules_length : sets.rules.length = grammar.rules.length
  nonterminals_within : ∀ set ∈ sets.nonterminals, set.terminals.Within grammar
  rules_within : ∀ set ∈ sets.rules, set.terminals.Within grammar

theorem Sized.ofString_within {grammar : Grammar α} {sets : FirstSets}
    (sized : sets.Sized grammar) (string : List Symbol) :
    (sets.ofString string).terminals.Within grammar := by
  induction string with
  | nil => intro terminal member; exact absurd member (TerminalSet.not_mem_empty terminal)
  | cons symbol rest ih =>
      intro terminal member
      cases found : sets.ofSymbol? symbol with
      | none =>
          rw [ofString_cons_of_none found] at member
          exact absurd member (TerminalSet.not_mem_empty terminal)
      | some first =>
          rcases ((ofString_cons_of_some found rest).1 terminal).mp member with inFirst | ⟨_, inRest⟩
          · cases symbol with
            | terminal other =>
                simp only [ofSymbol?] at found
                split at found
                · rename_i declared
                  cases found
                  rw [TerminalSet.mem_singleton.mp inFirst, ← sized.terminalCount]
                  exact declared
                · cases found
            | nonterminal nonterminal =>
                exact sized.nonterminals_within first (List.mem_of_getElem? found) terminal inFirst
          · exact ih terminal inRest

theorem Sized.absorbRule {grammar : Grammar α} {sets : FirstSets} (sized : sets.Sized grammar)
    (numbered : Rule α × RuleId) : (sets.absorbRule numbered).Sized grammar where
  terminalCount := sized.terminalCount
  nonterminals_length := by
    simp only [FirstSets.absorbRule, List.length_modify]
    exact sized.nonterminals_length
  rules_length := by
    simp only [FirstSets.absorbRule, List.length_modify]
    exact sized.rules_length
  nonterminals_within := by
    intro set member
    rcases eq_or_eq_change_of_mem_modify member with old | ⟨old, present, rfl⟩
    · exact sized.nonterminals_within set old
    · exact (sized.nonterminals_within old present).union (sized.ofString_within _)
  rules_within := by
    intro set member
    rcases eq_or_eq_change_of_mem_modify member with old | ⟨old, present, rfl⟩
    · exact sized.rules_within set old
    · exact (sized.rules_within old present).union (sized.ofString_within _)

theorem Sized.propagate {grammar : Grammar α} {sets : FirstSets} (sized : sets.Sized grammar) :
    (FirstSets.propagate grammar sets).Sized grammar :=
  foldl_preserves (fun current : FirstSets => current.Sized grammar)
    (fun _ numbered _ current => current.absorbRule numbered) sized

theorem Sized.initial (grammar : Grammar α) : (FirstSets.initial grammar).Sized grammar where
  terminalCount := rfl
  nonterminals_length := List.length_map _
  rules_length := List.length_map _
  nonterminals_within := by
    intro set member terminal inSet
    obtain ⟨_, _, rfl⟩ := List.mem_map.mp member
    exact absurd inSet (TerminalSet.not_mem_empty terminal)
  rules_within := by
    intro set member terminal inSet
    obtain ⟨_, _, rfl⟩ := List.mem_map.mp member
    exact absurd inSet (TerminalSet.not_mem_empty terminal)

/-- All sets of a stage, those of the nonterminals first. -/
private def allSets (sets : FirstSets) : List FirstSet :=
  sets.nonterminals ++ sets.rules

/-- The facts about a set: fact 0 is the mark of the empty string, fact `t + 1` the terminal `t`. -/
private def setHolds (set : FirstSet) : Nat → Bool
  | 0 => set.epsilon
  | terminal + 1 => set.terminals.contains terminal

private def holds (sets : FirstSets) (fact : Nat × Nat) : Bool :=
  setHolds (sets.allSets[fact.1]?.getD ∅) fact.2

private def facts (grammar : Grammar α) : Finset (Nat × Nat) :=
  Finset.range (grammar.nonterminals.length + grammar.rules.length) ×ˢ
    Finset.range (grammar.terminals.length + 1)

private theorem setHolds_mono {inner outer : FirstSet} (included : inner.Included outer)
    {fact : Nat} (held : setHolds inner fact = true) : setHolds outer fact = true := by
  cases fact with
  | zero => exact included.2 held
  | succ terminal => exact included.1 terminal held

private theorem allSets_included {inner outer : FirstSets} (included : inner.Included outer) :
    List.Forall₂ FirstSet.Included inner.allSets outer.allSets :=
  List.rel_append included.nonterminals included.rules

private theorem holds_mono {inner outer : FirstSets} (included : inner.Included outer)
    {fact : Nat × Nat} (held : holds inner fact = true) : holds outer fact = true := by
  have pairwise := allSets_included included
  unfold holds at held ⊢
  cases found : inner.allSets[fact.1]? with
  | none =>
      rw [found] at held
      obtain ⟨_, _ | terminal⟩ := fact
      · cases held
      · exact absurd held (TerminalSet.not_mem_empty terminal)
  | some set =>
      rw [found] at held
      obtain ⟨inRange, same⟩ := List.getElem?_eq_some_iff.mp found
      have inRange' : fact.1 < outer.allSets.length := pairwise.length_eq ▸ inRange
      rw [List.getElem?_eq_getElem inRange']
      have place := pairwise.get inRange inRange'
      simp only [List.get_eq_getElem, same] at place
      exact setHolds_mono place held

private theorem set_determined {grammar : Grammar α} {first second : FirstSet}
    (within : first.terminals.Within grammar) (within' : second.terminals.Within grammar)
    (agree : ∀ fact < grammar.terminals.length + 1, setHolds first fact = setHolds second fact) :
    first = second := by
  apply FirstSet.Included.antisymm
  · refine ⟨fun terminal member => ?_, fun epsilon => ?_⟩
    · exact (agree (terminal + 1) (Nat.succ_lt_succ (within terminal member))).symm.trans member
    · exact (agree 0 (Nat.succ_pos _)).symm.trans epsilon
  · refine ⟨fun terminal member => ?_, fun epsilon => ?_⟩
    · exact (agree (terminal + 1) (Nat.succ_lt_succ (within' terminal member))).trans member
    · exact (agree 0 (Nat.succ_pos _)).trans epsilon

private theorem Sized.allSets_length {grammar : Grammar α} {sets : FirstSets}
    (sized : sets.Sized grammar) :
    sets.allSets.length = grammar.nonterminals.length + grammar.rules.length := by
  rw [allSets, List.length_append, sized.nonterminals_length, sized.rules_length]

private theorem Sized.allSets_within {grammar : Grammar α} {sets : FirstSets}
    (sized : sets.Sized grammar) {set : FirstSet} (member : set ∈ sets.allSets) :
    set.terminals.Within grammar :=
  (List.mem_append.mp member).elim (sized.nonterminals_within set) (sized.rules_within set)

private theorem determined {grammar : Grammar α} {first second : FirstSets}
    (sized : first.Sized grammar) (sized' : second.Sized grammar)
    (agree : ∀ fact ∈ facts grammar, holds first fact = holds second fact) : first = second := by
  have lengths : first.allSets.length = second.allSets.length :=
    sized.allSets_length.trans sized'.allSets_length.symm
  have same : first.allSets = second.allSets := by
    apply List.ext_getElem lengths
    intro place inFirst inSecond
    apply set_determined (sized.allSets_within (List.getElem_mem inFirst))
      (sized'.allSets_within (List.getElem_mem inSecond))
    intro fact bounded
    have checked := agree (place, fact) (by
      rw [facts, Finset.mem_product, Finset.mem_range, Finset.mem_range]
      exact ⟨sized.allSets_length ▸ inFirst, bounded⟩)
    simpa only [holds, List.getElem?_eq_getElem inFirst, List.getElem?_eq_getElem inSecond,
      Option.getD_some] using checked
  obtain ⟨sameNonterminals, sameRules⟩ := List.append_inj same
    (sized.nonterminals_length.trans sized'.nonterminals_length.symm)
  obtain ⟨count, nonterminals, rules⟩ := first
  obtain ⟨count', nonterminals', rules'⟩ := second
  have sameCount : count = count' := sized.terminalCount.trans sized'.terminalCount.symm
  simp only at sameNonterminals sameRules
  rw [sameCount, sameNonterminals, sameRules]

/-- One more round changes nothing. -/
theorem propagate_compute (grammar : Grammar α) :
    propagate grammar (compute grammar) = compute grammar := by
  apply round_saturate_of_facts (propagate grammar) (fun sets => sets.Sized grammar)
    (facts grammar) holds
  · intro sets sized
    exact sized.propagate
  · intro sets _ fact held
    exact holds_mono (included_propagate grammar sets) held
  · intro first second sized sized' agree
    exact determined sized sized' agree
  · exact .initial grammar
  · rw [facts, Finset.card_product, Finset.card_range, Finset.card_range, roundLimit]
    exact Nat.mul_le_mul_right _ (by omega)

theorem Sized.compute (grammar : Grammar α) : (FirstSets.compute grammar).Sized grammar :=
  saturate_preserves _ (fun sets : FirstSets => sets.Sized grammar)
    (fun _ sized => sized.propagate) _ _ (.initial grammar)

/-! ### Nothing is missing -/

/-- Every rule has passed on to its left-hand side all that its right-hand side has. -/
def Closed (grammar : Grammar α) (sets : FirstSets) : Prop :=
  ∀ number rule, grammar.rule? number = some rule →
    ∃ set, sets.nonterminals[rule.left]? = some set ∧
      (sets.ofString rule.right).Included set

theorem compute_closed {grammar : Grammar α} (wellFormed : grammar.WellFormed) :
    (compute grammar).Closed grammar := by
  intro number rule known
  have unchanged := foldl_fixed .refl .trans Included.antisymm included_absorbRule
    (propagate_compute grammar) (rule, number) (Grammar.mem_numberedRules.mpr known)
  have inRange : rule.left < (compute grammar).nonterminals.length := by
    rw [(Sized.compute grammar).nonterminals_length]
    exact wellFormed.left_lt known
  refine ⟨_, List.getElem?_eq_getElem inRange, ?_⟩
  apply FirstSet.included_of_union_eq
  have place := congrArg (fun sets => sets.nonterminals[rule.left]?) unchanged
  simp only [absorbRule, List.getElem?_modify_eq, List.getElem?_eq_getElem inRange] at place
  exact Option.some.inj place

/-- Whether every rule has passed on all that it has, by comparing sets. -/
def isClosed (grammar : Grammar α) (sets : FirstSets) : Bool :=
  grammar.rules.all fun rule =>
    (sets.nonterminals[rule.left]?).any fun set => set.isSuperset (sets.ofString rule.right)

theorem closed_of_isClosed {grammar : Grammar α} {sets : FirstSets}
    (checked : sets.isClosed grammar = true) : sets.Closed grammar := by
  intro number rule known
  have passed := List.all_eq_true.mp checked rule (List.mem_of_getElem? known)
  obtain ⟨set, found, included⟩ := (Option.any_eq_true _ _).mp passed
  rw [FirstSet.isSuperset, Bool.and_eq_true, TerminalSet.isSuperset_iff] at included
  refine ⟨set, found, included.1, ?_⟩
  intro epsilon
  simpa [epsilon] using included.2

section Completeness

variable {grammar : Grammar α} {sets : FirstSets} {string : List Symbol}

theorem ofSymbol?_terminal (counted : sets.terminalCount = grammar.terminals.length)
    {terminal : Terminal} (declared : terminal < grammar.terminals.length) :
    sets.ofSymbol? (.terminal terminal) = some ⟨.singleton terminal, false⟩ := by
  rw [ofSymbol?, if_pos (counted ▸ declared)]

theorem Closed.epsilon_of_vanishes (closed : sets.Closed grammar)
    (vanishes : grammar.Vanishes string) : (sets.ofString string).epsilon = true := by
  induction vanishes with
  | nil => rfl
  | @cons number rule rest known _ _ ihInside ihOthers =>
      obtain ⟨set, found, included⟩ := closed number rule known
      have ending := (@ofString_cons_of_some sets (.nonterminal rule.left) set found rest).2
      exact ending.mpr ⟨included.2 ihInside, ihOthers⟩

theorem Closed.mem_of_begins (closed : sets.Closed grammar)
    (counted : sets.terminalCount = grammar.terminals.length) (wellFormed : grammar.WellFormed) {terminal : Terminal}
    (begins : grammar.Begins terminal string)
    (declared : ∀ symbol ∈ string, grammar.Declared symbol) :
    terminal ∈ (sets.ofString string).terminals := by
  induction begins with
  | terminal terminal rest =>
      have found := ofSymbol?_terminal counted (declared _ List.mem_cons_self)
      exact ((ofString_cons_of_some found rest).1 terminal).mpr
        (Or.inl (TerminalSet.mem_singleton.mpr rfl))
  | @rule number rule terminal rest known _ ih =>
      obtain ⟨set, found, included⟩ := closed number rule known
      have beginning := (@ofString_cons_of_some sets (.nonterminal rule.left) set found rest).1
      refine (beginning terminal).mpr (Or.inl (included.1 terminal (ih ?_)))
      intro symbol member
      exact (wellFormed.usable_of_mem_right known member).declared
  | @skip symbol rest terminal empty _ ih =>
      have inRest := ih fun other member => declared other (List.mem_cons_of_mem symbol member)
      cases empty with
      | @cons number rule _ known inside _ =>
          obtain ⟨set, found, included⟩ := closed number rule known
          have beginning := (@ofString_cons_of_some sets (.nonterminal rule.left) set found rest).1
          exact (beginning terminal).mpr
            (Or.inr ⟨included.2 (closed.epsilon_of_vanishes inside), inRest⟩)

end Completeness

/-! ### The computed sets -/

section Computed

variable {grammar : Grammar α} {string : List Symbol}

theorem epsilon_compute (wellFormed : grammar.WellFormed) :
    ((compute grammar).ofString string).epsilon = true ↔ grammar.Vanishes string :=
  ⟨((compute_sound grammar).ofString string).2, (compute_closed wellFormed).epsilon_of_vanishes⟩

theorem mem_compute (wellFormed : grammar.WellFormed)
    (declared : ∀ symbol ∈ string, grammar.Declared symbol) {terminal : Terminal} :
    terminal ∈ ((compute grammar).ofString string).terminals ↔ grammar.Begins terminal string :=
  ⟨((compute_sound grammar).ofString string).1 terminal,
    fun begins => (compute_closed wellFormed).mem_of_begins (Sized.compute grammar).terminalCount wellFormed
      begins declared⟩

/-- What begins a string that is followed by one of the lookaheads. -/
theorem mem_ofStringThen_compute (wellFormed : grammar.WellFormed)
    (declared : ∀ symbol ∈ string, grammar.Declared symbol) {lookaheads : TerminalSet}
    {terminal : Terminal} :
    terminal ∈ (compute grammar).ofStringThen string lookaheads ↔
      grammar.Begins terminal string ∨ grammar.Vanishes string ∧ terminal ∈ lookaheads := by
  rw [mem_ofStringThen, mem_compute wellFormed declared, epsilon_compute wellFormed]

end Computed

end FirstSets

end CoolLang
