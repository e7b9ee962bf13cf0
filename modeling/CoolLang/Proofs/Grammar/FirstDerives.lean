import CoolLang.Proofs.Grammar.Rounds

/-!
FIRST sets say what strings derive. What a rule has contributed stays sound for its right-hand side and
is complete in the end, so the memo of a rule is the set of its right-hand side. Together with the exact
sets of strings this gives the reading of FIRST by derivations (`FirstSets.first_iff_derives`).
-/

namespace CoolLang

variable {α : Type} {grammar : Grammar α}

namespace FirstSets

/-! ### Contributions of rules -/

def RulesSound (grammar : Grammar α) (sets : FirstSets) : Prop :=
  ∀ number rule set, grammar.rule? number = some rule → sets.rules[number]? = some set →
    SoundFor grammar set rule.right

private theorem initial_rulesSound (grammar : Grammar α) : RulesSound grammar (initial grammar) := by
  intro number rule set known found
  simp only [initial, List.getElem?_map] at found
  rw [show grammar.rules[number]? = some rule from known] at found
  cases found
  exact .empty grammar _

private theorem RulesSound.absorbRule {sets : FirstSets} (rulesSound : sets.RulesSound grammar)
    (sound : sets.Sound grammar) {rule : Rule α} {number : RuleId}
    (known : grammar.rule? number = some rule) :
    (sets.absorbRule (rule, number)).RulesSound grammar := by
  intro other otherRule set otherKnown found
  simp only [FirstSets.absorbRule, List.getElem?_modify] at found
  cases before : sets.rules[other]? with
  | none => rw [before] at found; cases found
  | some old =>
      rw [before] at found
      have oldSound := rulesSound other otherRule old otherKnown before
      by_cases same : number = other
      · subst same
        rw [known] at otherKnown
        cases otherKnown
        simp only [↓reduceIte, Option.map_eq_map, Option.map_some, Option.some.injEq] at found
        rw [← found]
        exact oldSound.union (sound.ofString rule.right)
      · simp only [if_neg same, Option.map_eq_map, Option.map_some, Option.some.injEq] at found
        rw [← found]
        exact oldSound

private theorem propagate_rulesSound {sets : FirstSets}
    (both : sets.Sound grammar ∧ sets.RulesSound grammar) :
    (propagate grammar sets).Sound grammar ∧ (propagate grammar sets).RulesSound grammar := by
  apply foldl_preserves
    (fun current : FirstSets => current.Sound grammar ∧ current.RulesSound grammar) _ both
  intro current numbered member currentBoth
  have known := Grammar.mem_numberedRules.mp member
  exact ⟨currentBoth.1.absorbRule known, currentBoth.2.absorbRule currentBoth.1 known⟩

theorem compute_rulesSound (grammar : Grammar α) : (compute grammar).RulesSound grammar := by
  have both := saturate_preserves (propagate grammar)
    (fun sets : FirstSets => sets.Sound grammar ∧ sets.RulesSound grammar)
    (fun _ kept => propagate_rulesSound kept) (roundLimit grammar) (initial grammar)
    ⟨initial_sound grammar, initial_rulesSound grammar⟩
  exact both.2

/-- A rule has contributed all that its right-hand side has. -/
private theorem ofString_included_rule {number : RuleId} {rule : Rule α} {set : FirstSet}
    (known : grammar.rule? number = some rule) (found : (compute grammar).rules[number]? = some set) :
    ((compute grammar).ofString rule.right).Included set := by
  -- the memo of a rule may lag behind, but not after a round in which no rule changes anything
  have unchanged := foldl_fixed .refl .trans Included.antisymm included_absorbRule
    (propagate_compute grammar) (rule, number) (Grammar.mem_numberedRules.mpr known)
  have place := congrArg (fun sets => sets.rules[number]?) unchanged
  simp only [absorbRule, List.getElem?_modify_eq, found] at place
  exact FirstSet.included_of_union_eq (Option.some.inj place)

theorem rules_compute (wellFormed : grammar.WellFormed) {number : RuleId} {rule : Rule α}
    (known : grammar.rule? number = some rule) :
    (compute grammar).rules[number]? = some ((compute grammar).ofString rule.right) := by
  have inRange : number < (compute grammar).rules.length := by
    rw [(Sized.compute grammar).rules_length]
    exact (List.getElem?_eq_some_iff.mp known).1
  have found := List.getElem?_eq_getElem inRange
  obtain ⟨beginning, ending⟩ := compute_rulesSound grammar number rule _ known found
  rw [found]
  apply congrArg some
  refine FirstSet.Included.antisymm ⟨?_, ?_⟩ (ofString_included_rule known found)
  · intro terminal member
    rw [mem_compute wellFormed]
    · exact beginning terminal member
    · intro symbol inRight
      exact (wellFormed.usable_of_mem_right known inRight).declared
  · intro epsilon
    exact (epsilon_compute wellFormed).mpr (ending epsilon)

/-! ### Single symbols -/

theorem ofString_singleton {sets : FirstSets} {symbol : Symbol} {set : FirstSet}
    (found : sets.ofSymbol? symbol = some set) : sets.ofString [symbol] = set := by
  obtain ⟨terminals, epsilon⟩ := set
  have members := (ofString_cons_of_some found []).1
  have ending := (ofString_cons_of_some found []).2
  apply FirstSet.Included.antisymm
  · exact ⟨fun terminal member => by simpa [ofString] using (members terminal).mp member,
      fun marked => (ending.mp marked).1⟩
  · exact ⟨fun terminal member => (members terminal).mpr (Or.inl member),
      fun marked => ending.mpr ⟨marked, rfl⟩⟩

theorem exists_ofSymbol? {sets : FirstSets} (sized : sets.Sized grammar) {symbol : Symbol}
    (declared : grammar.Declared symbol) : ∃ set, sets.ofSymbol? symbol = some set := by
  cases symbol with
  | terminal terminal => exact ⟨_, ofSymbol?_terminal sized.terminalCount declared⟩
  | nonterminal nonterminal =>
      refine ⟨_, List.getElem?_eq_getElem (?_ : nonterminal < sets.nonterminals.length)⟩
      rw [sized.nonterminals_length]
      exact declared

/-- FIRST is derivability. The loop that computes the sets ends, and it leaves sets by which a terminal is
in the set of a string of declared symbols exactly if the string derives something that begins with the
terminal, and the set has the mark of the empty string exactly if the string derives that. The set of a
symbol is the set of the symbol as a string, which for a terminal holds just itself, and what is kept for
a rule is the set of its right-hand side. -/
theorem first_iff_derives {declarations : List (Declaration α)}
    (accepted : Grammar.ofDeclarations declarations = .ok grammar) :
    (∃ rounds ≤ roundLimit grammar,
        Repeats (reportRound grammar) rounds (initial grammar) (compute grammar)) ∧
      (∀ string, (∀ symbol ∈ string, grammar.Declared symbol) →
        (∀ terminal, terminal ∈ ((compute grammar).ofString string).terminals ↔
            ∃ rest, grammar.Derives string (.terminal terminal :: rest)) ∧
          (((compute grammar).ofString string).epsilon = true ↔ grammar.Derives string [])) ∧
      (∀ symbol, grammar.Declared symbol →
        (compute grammar).ofSymbol? symbol = some ((compute grammar).ofString [symbol])) ∧
      (∀ terminal, grammar.Declared (.terminal terminal) →
        (compute grammar).ofSymbol? (.terminal terminal) = some ⟨.singleton terminal, false⟩) ∧
      ∀ number rule, grammar.rule? number = some rule →
        (compute grammar).rules[number]? = some ((compute grammar).ofString rule.right) := by
  have wellFormed := Grammar.wellFormed_of_declarations accepted
  refine ⟨?_, ?_, ?_, ?_, ?_⟩
  · exact exists_repeats (reportRound_eq grammar) (propagate_compute grammar)
  · intro string declared
    constructor
    · intro terminal
      rw [mem_compute wellFormed declared]
      exact Grammar.begins_iff_derives
    · rw [epsilon_compute wellFormed]
      exact Grammar.vanishes_iff_derives
  · intro symbol declared
    obtain ⟨set, found⟩ := exists_ofSymbol? (.compute grammar) declared
    rw [ofString_singleton found]
    exact found
  · intro terminal declared
    exact ofSymbol?_terminal (Sized.compute grammar).terminalCount declared
  · intro number rule known
    exact rules_compute wellFormed known

theorem first_iff_derives_nested :
    (compute Grammar.nested).rules[1]? = some ⟨.singleton 1, false⟩ ∧
      Grammar.nested.Derives [.nonterminal 1, .terminal 2] (.terminal 2 :: []) := by
  obtain ⟨_, strings, _, _, rules⟩ := first_iff_derives Grammar.nested_accepted
  constructor
  · have kept := rules 1 ⟨1, [.terminal 1, .nonterminal 1, .terminal 2], some ()⟩ rfl
    rw [kept]
    decide +kernel
  · have declared : ∀ symbol ∈ [Symbol.nonterminal 1], Grammar.nested.Declared symbol := by
      intro symbol member
      cases List.mem_singleton.mp member
      exact (by decide : 1 < 2)
    have vanishes := (strings [.nonterminal 1] declared).2.mp (by decide +kernel)
    exact vanishes.append (.refl [.terminal 2])

end FirstSets

end CoolLang
