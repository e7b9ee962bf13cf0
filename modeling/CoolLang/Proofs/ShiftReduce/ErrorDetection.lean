import CoolLang.Proofs.ShiftReduce.Completeness
import CoolLang.Proofs.ShiftReduce.Progress

/-!
Errors are found at once and rightly. Where every nonterminal derives a word, what a run has read
begins a sentence (`ParseTable.generatesFrom_of_reaches`). A table without conflicts has no action
before a token at which its run fails, whichever state it meets the token in
(`ParseTable.action?_of_unexpected_at`), so it fails in the state that it enters with the token before
(`ParseTable.entered_of_unexpected`).
-/

namespace CoolLang

variable {α θ : Type} {grammar : Grammar α} {terminalOf : θ → Terminal} {tokens : List θ}

open ParseTree

namespace Grammar

/-- Whether every nonterminal derives a word. -/
def Productive (grammar : Grammar α) : Prop :=
  ∀ nonterminal < grammar.nonterminals.length,
    ∃ word : List Terminal, grammar.Derives [.nonterminal nonterminal] (word.map .terminal)

/-- Whether the terminals begin a sentence with an end of input behind it. -/
def Viable (grammar : Grammar α) (terminals : List Terminal) : Prop :=
  ∃ sentence, grammar.Generates sentence ∧ terminals <+: sentence ++ [Terminal.eoi]

theorem GeneratesFrom.viable {word : List Terminal} (begins : grammar.GeneratesFrom word) :
    grammar.Viable word := by
  obtain ⟨rest, generates⟩ := begins
  refine ⟨word ++ rest, generates, ?_⟩
  rw [List.append_assoc]
  exact List.prefix_append _ _

theorem Productive.derives (productive : grammar.Productive) {string : List Symbol}
    (usable : ∀ symbol ∈ string, grammar.Usable symbol) :
    ∃ word : List Terminal, grammar.Derives string (word.map .terminal) := by
  induction string with
  | nil => exact ⟨[], .refl []⟩
  | cons symbol string ih =>
      obtain ⟨word, derives⟩ := ih fun other member => usable other (List.mem_cons_of_mem _ member)
      have first : ∃ front : List Terminal, grammar.Derives [symbol] (front.map .terminal) := by
        cases symbol with
        | terminal terminal => exact ⟨[terminal], .refl _⟩
        | nonterminal nonterminal =>
            have isUsable := usable (.nonterminal nonterminal) List.mem_cons_self
            exact productive nonterminal isUsable.2
      obtain ⟨front, derives'⟩ := first
      refine ⟨front ++ word, ?_⟩
      rw [List.map_append]
      exact derives'.append derives

/-- What leads to a state of the automaton can be completed to a sentence. -/
theorem Productive.exists_sentence (wellFormed : grammar.WellFormed)
    (productive : grammar.Productive) {read : List Symbol} {state : StateId} {below : List StateId}
    (path : grammar.automaton.Path read state below) {word : List Terminal}
    (derives : grammar.Derives read (word.map .terminal)) : grammar.GeneratesFrom word := by
  obtain ⟨item, context, valid⟩ := wellFormed.canonical.exists_valid wellFormed path
  have whole := valid.derives wellFormed
  obtain ⟨rest, derives'⟩ :
      ∃ rest : List Terminal,
        grammar.Derives ((grammar.right item.rule).drop item.marker ++ context)
          (rest.map .terminal) := by
    apply productive.derives
    intro symbol member
    rcases List.mem_append.mp member with inRule | inContext
    · exact wellFormed.usable_of_mem_right_number (List.mem_of_mem_drop inRule)
    · obtain ⟨rule, before, known, _, _, reached⟩ := valid
      exact reached.usable wellFormed symbol inContext
  refine ⟨rest, ?_⟩
  rw [Generates, List.map_append]
  exact whole.trans (derives.append derives')

end Grammar

namespace Machine

variable {σ τ ν ρ : Type} {machine : Machine σ τ ν ρ}

/-- `Entered machine terminalOf tokens position state`: the machine enters `state` with the token
before `position`, or starts in it at position 0. -/
inductive Entered (machine : Machine σ τ ν ρ) (terminalOf : θ → τ) (tokens : List θ) :
    Nat → σ → Prop where
  | start : Entered machine terminalOf tokens 0 machine.initial
  | shift {steps : Nat} {configuration : Configuration σ θ ρ} {token : θ} {rest : List θ} {next : σ}
      (reaches : machine.Reaches terminalOf steps (machine.start tokens) configuration)
      (lookahead : configuration.rest = token :: rest)
      (inEffect : machine.action configuration.state (terminalOf token) = some (.shift next)) :
      Entered machine terminalOf tokens (configuration.position + 1) next

end Machine

namespace ParseTable

variable {first : Configuration StateId θ RuleId} {read : List Symbol} {trees : List (ParseTree θ)}
  {token : θ} {position : Nat} {state : StateId}

/-- What a run has read begins a sentence. -/
theorem generatesFrom_of_reaches (wellFormed : grammar.WellFormed) (productive : grammar.Productive)
    {steps : Nat} (reaches : (generate grammar).machine.Reaches terminalOf steps
      ((generate grammar).machine.start tokens) first) {before : List θ}
    (whole : tokens = before ++ first.rest) : grammar.GeneratesFrom (before.map terminalOf) := by
  obtain ⟨read, trees, forest⟩ := exists_forest wellFormed reaches
  have leaves : frontiers trees = before := by
    have same := forest.tokens_eq
    rw [whole] at same
    exact List.append_cancel_right same
  have derives := forest.stand.derives
  rw [leaves] at derives
  apply productive.exists_sentence wellFormed forest.path
  rw [List.map_map]
  exact derives

/-- Where a run fails before a token, no configuration with the token ahead has an action. -/
theorem action?_of_unexpected (wellFormed : grammar.WellFormed)
    (free : (generate grammar).isLR1 = true)
    (path : grammar.automaton.Path read first.state first.below) {steps : Nat} {next : θ}
    {rest : List θ} (lookahead : first.rest = next :: rest)
    (ends : (generate grammar).machine.Ends terminalOf steps first
      (.error (.unexpectedToken token first.position state))) :
    (generate grammar).action? first.state (terminalOf next) = none := by
  cases inEffect : (generate grammar).action? first.state (terminalOf next) with
  | none => rfl
  | some action =>
      obtain ⟨count, last, reaches, lookahead', outcome⟩ :=
        proceeds_of_action? wellFormed free path lookahead inEffect
      obtain ⟨others, _, ends'⟩ := ends.after reaches
      rcases outcome with ⟨target, shifts⟩ | accepts
      · -- the run shifts the token, so it cannot fail at the token's position any more
        obtain ⟨_, _, ends''⟩ :=
          ends'.after (.single (Machine.step_of_shift lookahead' shifts))
        obtain ⟨final, _, reaches', _, atPosition, _⟩ := ends''.unexpectedToken
        obtain ⟨before, _, position'⟩ := reaches.read
        obtain ⟨after, _, position''⟩ := reaches'.read
        change final.position = last.position + 1 + after.length at position''
        omega
      · cases (ends'.unique (Machine.ends_of_accept lookahead' accepts)).2

/-- Where a run fails at a position, every configuration that it reaches there is without an action. -/
theorem action?_of_unexpected_at (wellFormed : grammar.WellFormed)
    (free : (generate grammar).isLR1 = true) {steps fewer : Nat}
    (ends : (generate grammar).machine.Ends terminalOf steps ((generate grammar).machine.start tokens)
      (.error (.unexpectedToken token position state)))
    (reaches : (generate grammar).machine.Reaches terminalOf fewer
      ((generate grammar).machine.start tokens) first) (atPosition : first.position = position) :
    (generate grammar).action? first.state (terminalOf token) = none := by
  obtain ⟨read, trees, forest⟩ := exists_forest wellFormed reaches
  obtain ⟨last, rest, reaches', lookahead, lastPosition, _, _⟩ := ends.unexpectedToken
  obtain ⟨before, whole, count⟩ := reaches.read_from_start
  obtain ⟨before', whole', count'⟩ := reaches'.read_from_start
  have sameRest := (List.append_inj (whole.symm.trans whole') (by omega)).2
  obtain ⟨others, _, ends'⟩ := ends.after reaches
  rw [← atPosition] at ends'
  exact action?_of_unexpected wellFormed free forest.path (sameRest.trans lookahead) ends'

theorem entered_of_unexpected (wellFormed : grammar.WellFormed)
    (free : (generate grammar).isLR1 = true) {steps : Nat}
    (ends : (generate grammar).machine.Ends terminalOf steps ((generate grammar).machine.start tokens)
      (.error (.unexpectedToken token position state))) :
    (generate grammar).machine.Entered terminalOf tokens position state := by
  obtain ⟨last, rest, reaches, lookahead, rfl, rfl, inEffect⟩ := ends.unexpectedToken
  rcases reaches.eq_or_last with same | ⟨fewer, before, reaches', step⟩
  · rw [← same]
    exact .start
  · have stepped := Machine.step_stepped (generate grammar).machine terminalOf before
    rw [step] at stepped
    cases stepped with
    | shift lookahead' shifts => exact .shift reaches' lookahead' shifts
    | reduce lookahead' reduces =>
        cases lookahead'.symm.trans lookahead
        have none := action?_of_unexpected_at wellFormed free ends reaches' rfl
        cases none.symm.trans reduces

/-- The token at which a run fails cannot follow what was read: with it, a sentence would fail too. -/
theorem not_viable_of_unexpected (wellFormed : grammar.WellFormed)
    (free : (generate grammar).isLR1 = true) {steps : Nat}
    {last : Configuration StateId θ RuleId} {before rest : List θ}
    (reaches : (generate grammar).machine.Reaches terminalOf steps
      ((generate grammar).machine.start (before ++ token :: rest)) last)
    (lookahead : last.rest = token :: rest)
    (inEffect : (generate grammar).action? last.state (terminalOf token) = none) :
    ¬grammar.Viable ((before ++ [token]).map terminalOf) := by
  rintro ⟨sentence, generates, more, whole⟩
  rw [← List.map_id sentence] at generates
  obtain ⟨tree, stands, leaves⟩ := exists_tree_of_generates generates
  obtain ⟨count, derivation, ends, _⟩ :=
    ends_of_tree wellFormed free stands [] (rfl : id Terminal.eoi = Terminal.eoi)
  rw [leaves, ← whole, List.map_append, List.append_assoc] at ends
  have retokened := reaches.retoken id more rfl lookahead (List.map_id (before.map terminalOf))
    (rfl : id (terminalOf token) = terminalOf token)
  have fails := retokened.ends (Machine.ends_of_none rfl inEffect)
  cases (ends.unique fails).2

/-- A table without conflicts finds errors at once and rightly, if every nonterminal derives a word. What
is before an unexpected token begins a sentence, and the token cannot follow. The state is the one
entered with the token before, and no configuration with the unexpected token ahead has an action, so
that nothing is reduced. When the tokens are too few, they begin a sentence. -/
theorem parse_error_exact {declarations : List (Declaration α)}
    (accepted : Grammar.ofDeclarations declarations = .ok grammar)
    (free : (generate grammar).isLR1 = true) (productive : grammar.Productive)
    (terminalOf : θ → Terminal) (tokens : List θ) :
    (∀ token position state, (generate grammar).parse terminalOf tokens =
          some (.error (.unexpectedToken token position state)) →
        tokens[position]? = some token ∧
        grammar.Viable ((tokens.take position).map terminalOf) ∧
        ¬grammar.Viable ((tokens.take (position + 1)).map terminalOf) ∧
        (generate grammar).machine.Entered terminalOf tokens position state ∧
        ∀ steps configuration, (generate grammar).machine.Reaches terminalOf steps
            ((generate grammar).machine.start tokens) configuration →
          configuration.position = position →
            (generate grammar).action? configuration.state (terminalOf token) = none) ∧
      ((generate grammar).parse terminalOf tokens = some (.error .unexpectedEnd) →
        grammar.GeneratesFrom (tokens.map terminalOf)) := by
  have wellFormed := Grammar.wellFormed_of_declarations accepted
  constructor
  · intro token position state failed
    obtain ⟨steps, ends⟩ := parse_eq_some_iff.mp failed
    have entered := entered_of_unexpected wellFormed free ends
    obtain ⟨last, rest, reaches, lookahead, rfl, rfl, inEffect⟩ := ends.unexpectedToken
    obtain ⟨before, whole, position⟩ := reaches.read_from_start
    have begins := generatesFrom_of_reaches wellFormed productive reaches whole
    have others : ∀ fewer configuration, (generate grammar).machine.Reaches terminalOf fewer
        ((generate grammar).machine.start tokens) configuration →
          configuration.position = last.position →
            (generate grammar).action? configuration.state (terminalOf token) = none := by
      intro fewer configuration reaches' atPosition
      exact action?_of_unexpected_at wellFormed free ends reaches' atPosition
    rw [lookahead] at whole
    have front : tokens.take before.length = before := by
      rw [whole]
      exact List.take_left
    have further : tokens.take (before.length + 1) = before ++ [token] := by
      rw [whole, List.append_cons]
      exact List.take_left' List.length_append
    have unexpected : tokens[before.length]? = some token := by
      rw [whole, ← List.head?_drop, List.drop_left]
      rfl
    rw [whole] at reaches
    rw [position] at entered others ⊢
    rw [front, further]
    exact ⟨unexpected, begins.viable,
      not_viable_of_unexpected wellFormed free reaches lookahead inEffect, entered, others⟩
  · intro failed
    obtain ⟨steps, ends⟩ := parse_eq_some_iff.mp failed
    obtain ⟨last, reaches, atEnd⟩ := ends.unexpectedEnd
    apply generatesFrom_of_reaches wellFormed productive reaches
    rw [atEnd, List.append_nil]

theorem parse_error_exact_nested :
    Grammar.nested.Viable [1, 1, 2] ∧ ¬Grammar.nested.Viable [1, 1, 2, 0] ∧
      Grammar.nested.GeneratesFrom [1, 1, 2] := by
  have productive : Grammar.nested.Productive := by
    have empty : Grammar.nested.Derives [.nonterminal 1] [] :=
      .single (.replace [] [] (show Grammar.nested.rule? 2 = some _ from rfl))
    intro nonterminal declared
    refine ⟨[], ?_⟩
    match nonterminal, declared with
    | 0, _ => exact .head (.replace [] [] (show Grammar.nested.rule? 0 = some _ from rfl)) empty
    | 1, _ => exact empty
  have failed : (generate Grammar.nested).parse id [1, 1, 2, 0, 2] =
      some (.error (.unexpectedToken 0 3 7)) := by
    decide +kernel
  have cutOff : (generate Grammar.nested).parse id [1, 1, 2] = some (.error .unexpectedEnd) := by
    decide +kernel
  have atToken := (parse_error_exact Grammar.nested_accepted isLR1_nested productive id
    [1, 1, 2, 0, 2]).1 0 3 7 failed
  have atEnd := (parse_error_exact Grammar.nested_accepted isLR1_nested productive id
    [1, 1, 2]).2 cutOff
  exact ⟨atToken.2.1, atToken.2.2.1, atEnd⟩

end ParseTable

end CoolLang
