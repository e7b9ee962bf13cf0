import CoolLang.Proofs.ShiftReduce.Guidance
import CoolLang.Proofs.ShiftReduce.Soundness
import CoolLang.Proofs.ShiftReduce.StepBound

/-!
A table without conflicts gets past every lookahead that it reduces under. Where the rest of a valid
item begins with the lookahead, the run comes to shift it (`ParseTable.proceeds_of_begins`), and where
a complete item foresees the lookahead, the run comes to shift it or accepts
(`ParseTable.proceeds_of_reached`), for the reductions follow the nonterminals outwards by which the
item is reached. So every run ends.
-/

namespace CoolLang

variable {α θ : Type} {grammar : Grammar α} {terminalOf : θ → Terminal}
  {first second last : Configuration StateId θ RuleId} {read context : List Symbol}
  {token : θ} {rest : List θ}

open ParseTree

namespace Machine

/-- A run that comes to shift its lookahead `token`, or to accept before it. -/
def Proceeds {σ τ ν ρ : Type} (machine : Machine σ τ ν ρ) (terminalOf : θ → τ)
    (first : Configuration σ θ ρ) (token : θ) (rest : List θ) : Prop :=
  ∃ steps last, machine.Reaches terminalOf steps first last ∧ last.rest = token :: rest ∧
    ((∃ next, machine.action last.state (terminalOf token) = some (.shift next)) ∨
      machine.action last.state (terminalOf token) = some .accept)

theorem Proceeds.before {σ τ ν ρ : Type} {machine : Machine σ τ ν ρ} {terminalOf : θ → τ}
    {first second : Configuration σ θ ρ} {steps : Nat}
    (proceeds : machine.Proceeds terminalOf second token rest)
    (reaches : machine.Reaches terminalOf steps first second) :
    machine.Proceeds terminalOf first token rest := by
  obtain ⟨more, last, reaches', outcome⟩ := proceeds
  exact ⟨steps + more, last, reaches.trans reaches', outcome⟩

end Machine

namespace ParseTable

/-- Trees without leaves carry a run past symbols that vanish. -/
theorem builds_of_vanishes (wellFormed : grammar.WellFormed)
    (free : (generate grammar).isLR1 = true) {symbols beyond : List Symbol}
    (vanishes : grammar.Vanishes symbols)
    (path : grammar.automaton.Path read first.state first.below)
    (lookahead : first.rest = token :: rest) {item : Item} (valid : grammar.Valid read item context)
    (after : (grammar.right item.rule).drop item.marker = symbols ++ beyond)
    (foresees : grammar.Foresees (beyond ++ context) (terminalOf token)) :
    ∃ last trees, Builds grammar terminalOf first last read symbols trees ∧
      last.rest = token :: rest := by
  obtain ⟨trees, stand, none⟩ := vanishes.exists_trees
  obtain ⟨last, builds⟩ := stand.guides wellFormed free path valid after
    (by rw [none]; exact lookahead) foresees
  have same := builds.rest_eq
  rw [none, lookahead] at same
  exact ⟨last, trees, builds, same.symm⟩

theorem proceeds_of_begins (wellFormed : grammar.WellFormed)
    (free : (generate grammar).isLR1 = true) {string : List Symbol}
    (begins : grammar.Begins (terminalOf token) string)
    (path : grammar.automaton.Path read first.state first.below)
    (lookahead : first.rest = token :: rest) {item : Item} (valid : grammar.Valid read item context)
    (after : (grammar.right item.rule).drop item.marker = string) :
    (generate grammar).machine.Proceeds terminalOf first token rest := by
  generalize same : terminalOf token = terminal at begins
  induction begins generalizing first read context item with
  | terminal terminal others =>
      rw [← same] at after
      obtain ⟨next, shifts, _⟩ :=
        shifts_of_valid wellFormed free path valid (Item.next?_of_drop after)
      exact ⟨0, first, .refl first, lookahead, Or.inl ⟨next, shifts⟩⟩
  | rule others known _ ih =>
      refine ih path lookahead ((valid.reached after).valid known) ?_ same
      rw [Grammar.right_eq known, List.drop_zero]
  | @skip symbol others terminal vanishes begins ih =>
      have foresees : grammar.Foresees (others ++ context) (terminalOf token) := by
        rw [same]
        exact Grammar.foresees_append.mpr (Or.inl begins)
      obtain ⟨second, _, builds, lookahead'⟩ :=
        builds_of_vanishes wellFormed free vanishes path lookahead valid after foresees
      have advanced := valid.advance (Item.next?_of_drop after)
      obtain ⟨steps, reaches⟩ := builds.reaches
      exact (ih builds.path lookahead' advanced (Item.drop_advance after) same).before reaches

theorem proceeds_of_reached (wellFormed : grammar.WellFormed)
    (free : (generate grammar).isLR1 = true) {number : RuleId} {rule : Rule α}
    (known : grammar.rule? number = some rule) (reached : grammar.Reached rule.left read context)
    (path : grammar.automaton.Path (read ++ rule.right) first.state first.below)
    (lookahead : first.rest = token :: rest)
    (foresees : grammar.Foresees context (terminalOf token)) :
    (generate grammar).machine.Proceeds terminalOf first token rest := by
  generalize same : rule.left = left at reached
  induction reached generalizing first number rule with
  | start =>
      have augmented := wellFormed.augmented_of_left known same
      subst augmented
      rw [wellFormed.rule?_augmented] at known
      cases known
      have valid := Grammar.Reached.start.valid_within wellFormed.rule?_augmented
        (List.append_nil _).symm
      have inEffect := action?_of_warrants wellFormed free path (.accept valid)
      rw [← Grammar.foresees_nil.mp foresees] at inEffect
      exact ⟨0, first, .refl first, lookahead, Or.inr inEffect⟩
  | @step outer outerRule read context reached outerKnown before after nonterminal right ih =>
      subst same
      have declared : number ≠ RuleId.augmented := by
        apply wellFormed.ne_augmented_of_usable known
        apply wellFormed.usable_of_mem_right outerKnown
        rw [right]
        exact List.mem_append_right _ List.mem_cons_self
      have whole := (reached.step outerKnown right).valid_within known (List.append_nil _).symm
      obtain ⟨front, top, below, next, sameRead, _, _, reaches, path'⟩ :=
        reaches_reduce wellFormed free path lookahead known declared whole foresees
      cases List.append_cancel_right sameRead
      have lookahead' : (first.reduce number top below next).rest = token :: rest := lookahead
      refine Machine.Proceeds.before ?_ reaches
      -- the outer item has moved past the nonterminal that was reduced
      rw [List.append_cons] at right
      rw [List.append_assoc] at path'
      have valid := reached.valid_within outerKnown right
      have others : (grammar.right outer).drop (before ++ [Symbol.nonterminal rule.left]).length =
          after := by
        rw [Grammar.right_eq outerKnown, right, List.drop_left]
      rcases Grammar.foresees_append.mp foresees with begins | ⟨vanishes, foresees⟩
      · exact proceeds_of_begins wellFormed free begins path' lookahead' valid others
      · rw [← List.append_nil after] at others
        obtain ⟨second, _, builds, lookahead''⟩ :=
          builds_of_vanishes wellFormed free vanishes path' lookahead' valid others foresees
        obtain ⟨steps, reaches'⟩ := builds.reaches
        have path'' := builds.path
        rw [List.append_assoc, ← right] at path''
        exact (ih outerKnown path'' lookahead'' foresees rfl).before reaches'

/-- Where a run has any action, it gets past the lookahead. -/
theorem proceeds_of_action? (wellFormed : grammar.WellFormed)
    (free : (generate grammar).isLR1 = true)
    (path : grammar.automaton.Path read first.state first.below)
    (lookahead : first.rest = token :: rest) {action : TableAction}
    (inEffect : (generate grammar).action? first.state (terminalOf token) = some action) :
    (generate grammar).machine.Proceeds terminalOf first token rest := by
  cases action with
  | shift next => exact ⟨0, first, .refl first, lookahead, Or.inl ⟨next, inEffect⟩⟩
  | accept => exact ⟨0, first, .refl first, lookahead, Or.inr inEffect⟩
  | reduce number =>
      obtain ⟨rule, context, known, _, valid, foresees⟩ :=
        (warrants_of_action? wellFormed path inEffect).of_reduce
      obtain ⟨before, rfl, reached⟩ := valid.reached_of_complete known
      exact proceeds_of_reached wellFormed free known reached path lookahead foresees

/-- Every run ends, however it goes on from its forest. -/
theorem Forest.exists_ends (wellFormed : grammar.WellFormed)
    (free : (generate grammar).isLR1 = true) {tokens : List θ} {trees : List (ParseTree θ)}
    (forest : Forest grammar terminalOf tokens first read trees) :
    ∃ steps result, (generate grammar).machine.Ends terminalOf steps first result := by
  generalize lookahead : first.rest = rest
  induction rest generalizing first read trees with
  | nil => exact ⟨0, _, Machine.ends_of_nil lookahead⟩
  | cons token rest ih =>
      cases inEffect : (generate grammar).action? first.state (terminalOf token) with
      | none => exact ⟨0, _, Machine.ends_of_none lookahead inEffect⟩
      | some action =>
          obtain ⟨steps, last, reaches, lookahead', outcome⟩ :=
            proceeds_of_action? wellFormed free forest.path lookahead inEffect
          obtain ⟨read', trees', forest'⟩ := forest.reaches wellFormed reaches
          rcases outcome with ⟨next, shifts⟩ | accepts
          · obtain ⟨more, result, ends⟩ := ih (forest'.shift wellFormed lookahead' shifts) rfl
            have step := Machine.Reaches.single (Machine.step_of_shift lookahead' shifts)
            exact ⟨_, result, reaches.ends (step.ends ends)⟩
          · exact ⟨_, _, reaches.ends (Machine.ends_of_accept lookahead' accepts)⟩

/-- Without conflicts every parse gives a result, and no run goes on beyond the step limit, whatever
the tokens are. -/
theorem parse_terminates {declarations : List (Declaration α)}
    (accepted : Grammar.ofDeclarations declarations = .ok grammar)
    (free : (generate grammar).isLR1 = true) (terminalOf : θ → Terminal) (tokens : List θ) :
    (∃ result, (generate grammar).parse terminalOf tokens = some result) ∧
      ∀ steps configuration, (generate grammar).machine.Reaches terminalOf steps
          ((generate grammar).machine.start tokens) configuration →
        steps < (generate grammar).stepLimit tokens.length := by
  have wellFormed := Grammar.wellFormed_of_declarations accepted
  obtain ⟨total, result, ends⟩ :=
    (Forest.start grammar terminalOf tokens).exists_ends wellFormed free
  refine ⟨⟨result, parse_eq_some_iff.mpr ⟨total, ends⟩⟩, ?_⟩
  intro steps configuration reaches
  obtain ⟨others, rfl, _⟩ := ends.after reaches
  exact Nat.lt_of_le_of_lt (Nat.le_add_right _ _) (steps_lt_stepLimit ends)

theorem parse_terminates_nested :
    ∃ result, (generate Grammar.nested).parse id [1, 9, 2] = some result :=
  (parse_terminates Grammar.nested_accepted isLR1_nested id [1, 9, 2]).1

end ParseTable

end CoolLang
