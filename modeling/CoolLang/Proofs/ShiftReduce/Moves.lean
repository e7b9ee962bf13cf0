import CoolLang.Proofs.Automaton.Prescription
import CoolLang.Proofs.ShiftReduce.Run

/-!
Moves of the generated table. When the states of a configuration lie on a path of the canonical
automaton, its stack holds the right-hand side of every complete valid item, and the state below that
has a goto for the rule's nonterminal (`Grammar.Valid.uncovers`). Without conflicts a valid item is
followed: its terminal is shifted (`ParseTable.shifts_of_valid`), its rule reduced
(`ParseTable.reaches_reduce`).
-/

namespace CoolLang

variable {α : Type} {grammar : Grammar α}

namespace Grammar

variable {read context : List Symbol} {state : StateId} {below : List StateId}

/-- A nonterminal other than `$start` is reached because an item expects it. -/
theorem Reached.expected {left : Nonterminal} (reached : grammar.Reached left read context)
    (declared : left ≠ Nonterminal.augmented) :
    ∃ item outside, grammar.Valid read item outside ∧
      item.next? grammar = some (.nonterminal left) := by
  cases reached with
  | start => exact absurd rfl declared
  | @step number rule read context reached known before after _ right =>
      refine ⟨_, context, reached.valid_within known right, ?_⟩
      apply Item.next?_of_drop
      rw [right_eq known, right, List.drop_left]

/-- The stack below a complete valid item, and where the item's nonterminal leads from there. -/
theorem Valid.uncovers (wellFormed : grammar.WellFormed)
    (path : grammar.automaton.Path read state below) {number : RuleId} {rule : Rule α}
    (known : grammar.rule? number = some rule) (declared : number ≠ RuleId.augmented)
    (valid : grammar.Valid read ⟨number, rule.right.length⟩ context) :
    ∃ before top rest next, read = before ++ rule.right ∧
      grammar.Reached rule.left before context ∧
        (state :: below).drop rule.right.length = top :: rest ∧
          grammar.automaton.Path before top rest ∧
            grammar.automaton.transition? top (.nonterminal rule.left) = some next := by
  obtain ⟨before, rfl, reached⟩ := valid.reached_of_complete known
  obtain ⟨top, rest, dropped, path'⟩ := path.drop
  obtain ⟨item, outside, valid, isNext⟩ :=
    reached.expected (wellFormed.left_ne_augmented known declared)
  obtain ⟨next, leads⟩ := wellFormed.canonical.leads_of_valid wellFormed valid path' isNext
  exact ⟨before, top, rest, next, rfl, reached, dropped, path', leads⟩

end Grammar

namespace ParseTable

variable {θ : Type} {terminalOf : θ → Terminal} {read context : List Symbol}
  {configuration : Configuration StateId θ RuleId} {token : θ} {rest : List θ}

theorem shifts_of_valid (wellFormed : grammar.WellFormed) (free : (generate grammar).isLR1 = true)
    (path : grammar.automaton.Path read configuration.state configuration.below) {item : Item}
    (valid : grammar.Valid read item context) {terminal : Terminal}
    (isNext : item.next? grammar = some (.terminal terminal)) :
    ∃ next, (generate grammar).action? configuration.state terminal = some (.shift next) ∧
      grammar.automaton.Path (read ++ [.terminal terminal]) next
        (configuration.state :: configuration.below) := by
  obtain ⟨next, leads⟩ := wellFormed.canonical.leads_of_valid wellFormed valid path isNext
  exact ⟨next, action?_of_warrants wellFormed free path (.shift valid isNext leads), path.step leads⟩

/-- The reduction that a complete valid item calls for. -/
theorem reaches_reduce (wellFormed : grammar.WellFormed) (free : (generate grammar).isLR1 = true)
    (path : grammar.automaton.Path read configuration.state configuration.below)
    (lookahead : configuration.rest = token :: rest) {number : RuleId} {rule : Rule α}
    (known : grammar.rule? number = some rule) (declared : number ≠ RuleId.augmented)
    (valid : grammar.Valid read ⟨number, rule.right.length⟩ context)
    (foresees : grammar.Foresees context (terminalOf token)) :
    ∃ before top below next, read = before ++ rule.right ∧
      grammar.Reached rule.left before context ∧
        (configuration.state :: configuration.below).drop rule.right.length = top :: below ∧
          (generate grammar).machine.Reaches terminalOf 1 configuration
              (configuration.reduce number top below next) ∧
            grammar.automaton.Path (before ++ [.nonterminal rule.left]) next (top :: below) := by
  obtain ⟨before, top, below, next, whole, reached, uncovered, path', leads⟩ :=
    valid.uncovers wellFormed path known declared
  have inEffect := action?_of_warrants wellFormed free path (.reduce known declared valid foresees)
  have step := Machine.step_of_reduce lookahead inEffect (production_generate known) uncovered
    ((goto?_generate wellFormed).mpr leads)
  exact ⟨before, top, below, next, whole, reached, uncovered, .single step, path'.step leads⟩

end ParseTable

end CoolLang
