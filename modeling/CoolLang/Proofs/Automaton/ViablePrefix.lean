import CoolLang.Proofs.Automaton.ValidItem

/-!
Which strings lead to states, and what the states hold then. An item that is valid for a nonempty
string is there because an item was valid before that expected the last symbol
(`Grammar.Valid.expected_last`), so a string for which some item is valid leads to a state
(`Automaton.Canonical.exists_path_of_valid`). The state has the valid items and no others, each with the
union of the FIRST sets of its contexts before the end of input (`Grammar.valid_items_of_path`).
-/

namespace CoolLang

variable {α : Type} {grammar : Grammar α}

namespace Grammar

variable {read context : List Symbol} {item : Item} {symbol : Symbol}

/-- Whether an item that is valid for the string expects the symbol. -/
private def Expects (grammar : Grammar α) (read : List Symbol) (symbol : Symbol) : Prop :=
  ∃ item context, grammar.Valid read item context ∧ item.next? grammar = some symbol

/-- A symbol inside a rule is expected by the item in front of it. -/
private theorem Reached.expects {number : RuleId} {rule : Rule α}
    (known : grammar.rule? number = some rule) (reached : grammar.Reached rule.left read context)
    {front back : List Symbol} (right : rule.right = front ++ symbol :: back) :
    Expects grammar (read ++ front) symbol := by
  refine ⟨⟨number, front.length⟩, context, reached.valid_within known right, ?_⟩
  apply Item.next?_of_drop
  rw [right_eq known, right, List.drop_left]

private theorem Reached.expects_last {left : Nonterminal}
    (reached : grammar.Reached left (read ++ [symbol]) context) :
    Expects grammar read symbol := by
  generalize whole : read ++ [symbol] = string at reached
  induction reached with
  | start => simp at whole
  | @step number rule outer context reached known before after nonterminal right ih =>
      rcases List.eq_nil_or_concat' before with rfl | ⟨front, last, rfl⟩
      · rw [List.append_nil] at whole
        exact ih whole
      · rw [← List.append_assoc] at whole
        obtain ⟨rfl, sameLast⟩ := List.append_inj' whole rfl
        cases sameLast
        rw [List.append_assoc] at right
        exact reached.expects known right

/-- An item is valid for a longer string because the last symbol was expected. -/
theorem Valid.expected_last (valid : grammar.Valid (read ++ [symbol]) item context) :
    ∃ before outside, grammar.Valid read before outside ∧ before.next? grammar = some symbol := by
  obtain ⟨rule, outer, known, inside, whole, reached⟩ := valid
  cases marker : item.marker with
  | zero =>
      rw [marker, List.take_zero, List.append_nil] at whole
      rw [← whole] at reached
      exact reached.expects_last
  | succ place =>
      rw [marker] at inside whole
      have present := List.getElem?_eq_getElem (show place < rule.right.length from inside)
      rw [List.take_add_one, present, ← List.append_assoc] at whole
      obtain ⟨rfl, sameLast⟩ := List.append_inj' whole rfl
      cases sameLast
      have right : rule.right = rule.right.take place ++
          rule.right[place] :: rule.right.drop (place + 1) := by
        rw [List.getElem_cons_drop, List.take_append_drop]
      exact reached.expects known right

end Grammar

theorem Automaton.Canonical.exists_path_of_valid {automaton : Automaton}
    (canonical : automaton.Canonical grammar (FirstSets.compute grammar))
    (wellFormed : grammar.WellFormed) {read context : List Symbol} {item : Item}
    (valid : grammar.Valid read item context) :
    ∃ state below, automaton.Path read state below := by
  induction read using List.reverseRecOn generalizing item context with
  | nil => exact ⟨0, [], .start⟩
  | append_singleton read symbol ih =>
      obtain ⟨before, outside, valid', isNext⟩ := valid.expected_last
      obtain ⟨state, below, path⟩ := ih valid'
      obtain ⟨next, leads⟩ := canonical.leads_of_valid wellFormed valid' path isNext
      exact ⟨next, state :: below, path.step leads⟩

namespace Grammar

variable {read context : List Symbol} {item : Item}

theorem mem_first_iff_foresees (wellFormed : grammar.WellFormed)
    (valid : grammar.Valid read item context) {terminal : Terminal} :
    terminal ∈ ((FirstSets.compute grammar).ofString
        (context ++ [.terminal Terminal.eoi])).terminals ↔ grammar.Foresees context terminal := by
  obtain ⟨rule, before, _, _, _, reached⟩ := valid
  apply FirstSets.mem_compute wellFormed
  intro symbol member
  rcases List.mem_append.mp member with inContext | isEnd
  · exact (reached.usable wellFormed symbol inContext).declared
  · rw [List.mem_singleton.mp isEnd]
    exact wellFormed.eoi_declared

/-- The lookaheads of an item are those of all contexts in which it is valid. -/
theorem mem_lookaheads_iff (wellFormed : grammar.WellFormed) {state : StateId}
    {below : List StateId} (path : grammar.automaton.Path read state below) {found : State}
    (isFound : grammar.automaton.states[state]? = some found) {lookaheads : TerminalSet}
    (member : (item, lookaheads) ∈ found.items) {terminal : Terminal} :
    terminal ∈ lookaheads ↔
      ∃ context, grammar.Valid read item context ∧ grammar.Foresees context terminal := by
  have canonical := wellFormed.canonical
  constructor
  · exact (canonical.valid_of_mem wellFormed path isFound _ member).2 terminal
  · rintro ⟨context, valid, foresees⟩
    obtain ⟨others, member', all⟩ := canonical.mem_of_valid wellFormed valid path isFound
    -- items are in strict order, so this is the same entry
    have ordered := canonical.items_ordered wellFormed isFound
    rw [ItemSet.lookaheads_unique ordered member member']
    exact all terminal foresees

/-- A string leads from state 0 to a state exactly when some item is valid for it. Whichever state it
leads to, the items there are the valid ones, and the lookaheads of an item are what FIRST gives for the
contexts in which it is valid, before the end of input: the terminals that begin what is derived
from there. -/
theorem valid_items_of_path {declarations : List (Declaration α)}
    (accepted : Grammar.ofDeclarations declarations = .ok grammar) (read : List Symbol) :
    ((∃ state below, grammar.automaton.Path read state below) ↔
        ∃ item context, grammar.Valid read item context) ∧
      ∀ state below, grammar.automaton.Path read state below →
        ∃ found, grammar.automaton.states[state]? = some found ∧ ∀ item,
          ((∃ lookaheads, (item, lookaheads) ∈ found.items) ↔
              ∃ context, grammar.Valid read item context) ∧
            ∀ lookaheads, (item, lookaheads) ∈ found.items → ∀ terminal,
              (terminal ∈ lookaheads ↔ ∃ context, grammar.Valid read item context ∧
                terminal ∈ ((FirstSets.compute grammar).ofString
                  (context ++ [.terminal Terminal.eoi])).terminals) ∧
              (terminal ∈ lookaheads ↔ ∃ context, grammar.Valid read item context ∧
                ∃ rest, grammar.Derives (context ++ [.terminal Terminal.eoi])
                  (.terminal terminal :: rest)) := by
  have wellFormed := Grammar.wellFormed_of_declarations accepted
  have canonical := wellFormed.canonical
  constructor
  · constructor
    · rintro ⟨state, below, path⟩
      exact canonical.exists_valid wellFormed path
    · rintro ⟨item, context, valid⟩
      exact canonical.exists_path_of_valid wellFormed valid
  · intro state below path
    obtain ⟨found, isFound⟩ := canonical.exists_state path
    refine ⟨found, isFound, fun item => ⟨⟨?_, ?_⟩, ?_⟩⟩
    · rintro ⟨lookaheads, member⟩
      exact (canonical.valid_of_mem wellFormed path isFound _ member).1
    · rintro ⟨context, valid⟩
      obtain ⟨lookaheads, member, _⟩ := canonical.mem_of_valid wellFormed valid path isFound
      exact ⟨lookaheads, member⟩
    · intro lookaheads member terminal
      rw [mem_lookaheads_iff wellFormed path isFound member]
      constructor
      · apply exists_congr
        intro context
        exact and_congr_right fun valid => (mem_first_iff_foresees wellFormed valid).symm
      · apply exists_congr
        intro context
        exact and_congr_right fun _ => begins_iff_derives

theorem valid_items_of_path_nested :
    Grammar.nested.automaton.Path [.terminal 1] 2 [0] ∧
      (∃ context, Grammar.nested.Valid [.terminal 1] ⟨2, 0⟩ context) ∧
      ¬∃ context, Grammar.nested.Valid [.terminal 1] ⟨2, 0⟩ context ∧
        ∃ rest, Grammar.nested.Derives (context ++ [.terminal Terminal.eoi])
          (.terminal Terminal.eoi :: rest) := by
  have path : Grammar.nested.automaton.Path [.terminal 1] 2 [0] :=
    .step .start (by decide +kernel)
  obtain ⟨found, isFound, items⟩ :=
    (valid_items_of_path Grammar.nested_accepted [.terminal 1]).2 2 [0] path
  have member : (⟨2, 0⟩, TerminalSet.singleton 2) ∈ found.items := by
    have present : (Grammar.nested.automaton.states[2]?.elim [] State.items).contains
        (⟨2, 0⟩, TerminalSet.singleton 2) = true := by
      decide +kernel
    rw [isFound] at present
    exact List.contains_iff_mem.mp present
  refine ⟨path, (items ⟨2, 0⟩).1.mp ⟨_, member⟩, ?_⟩
  intro follows
  have inSet := (((items ⟨2, 0⟩).2 _ member Terminal.eoi).2).mpr follows
  exact absurd inSet (by decide)

end Grammar

end CoolLang
