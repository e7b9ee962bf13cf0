import CoolLang.Proofs.ShiftReduce.Soundness
import CoolLang.Proofs.ShiftReduce.StepBound

/-!
Runs of generated tables never run out of stack, with conflicts or without. Wherever a reduction is
chosen, a valid item calls for it; so the states of the rule's right-hand side are on the stack, and
the state below them has a goto (`ParseTable.reduction_uncovers`). What is left for a run to fail at is
the end of the tokens or an unexpected token (`ParseTable.parse_keeps_stack`).
-/

namespace CoolLang

namespace ParseTable

variable {α θ : Type} {grammar : Grammar α} {terminalOf : θ → Terminal} {tokens : List θ}
  {configuration : Configuration StateId θ RuleId} {steps : Nat}

/-- What a reduction finds on the stack, wherever a run chooses it. -/
theorem reduction_uncovers (wellFormed : grammar.WellFormed)
    (reaches : (generate grammar).machine.Reaches terminalOf steps
      ((generate grammar).machine.start tokens) configuration)
    {terminal : Terminal} {number : RuleId}
    (inEffect : (generate grammar).action? configuration.state terminal = some (.reduce number)) :
    ∃ rule top below next, grammar.rule? number = some rule ∧
      rule.right.length < (configuration.state :: configuration.below).length ∧
        (configuration.state :: configuration.below).drop rule.right.length = top :: below ∧
          (generate grammar).goto? top rule.left = some next := by
  obtain ⟨read, trees, forest⟩ := exists_forest wellFormed reaches
  obtain ⟨rule, context, known, declared, valid, _⟩ :=
    (warrants_of_action? wellFormed forest.path inEffect).of_reduce
  obtain ⟨_, top, below, next, _, _, uncovered, _, leads⟩ :=
    valid.uncovers wellFormed forest.path known declared
  refine ⟨rule, top, below, next, known, ?_, uncovered, (goto?_generate wellFormed).mpr leads⟩
  have left := congrArg List.length uncovered
  rw [List.length_drop] at left
  simp only [List.length_cons] at left ⊢
  omega

theorem step_keeps_stack (wellFormed : grammar.WellFormed)
    (reaches : (generate grammar).machine.Reaches terminalOf steps
      ((generate grammar).machine.start tokens) configuration) :
    (generate grammar).machine.step terminalOf configuration ≠ .failed .emptyStack ∧
      ∀ state, (generate grammar).machine.step terminalOf configuration ≠
        .failed (.missingGoto state) := by
  have stepped := Machine.step_stepped (generate grammar).machine terminalOf configuration
  constructor
  · intro failed
    rw [failed] at stepped
    cases stepped with
    | emptyStack _ inEffect production uncovered =>
        obtain ⟨rule, top, below, next, known, _, uncovered', _⟩ :=
          reduction_uncovers wellFormed reaches inEffect
        rw [production_generate known] at production
        cases production
        cases uncovered.symm.trans uncovered'
  · intro state failed
    rw [failed] at stepped
    cases stepped with
    | missingGoto _ inEffect production uncovered goto =>
        obtain ⟨rule, top, below, next, known, _, uncovered', goto'⟩ :=
          reduction_uncovers wellFormed reaches inEffect
        rw [production_generate known] at production
        cases production
        cases uncovered.symm.trans uncovered'
        cases goto.symm.trans goto'

/-- What a run can fail at: a token that is there, or the end of tokens none of which is an end of
input. -/
theorem fails_of_ends (wellFormed : grammar.WellFormed) {steps : Nat} {error : ParseError StateId θ}
    (ends : (generate grammar).machine.Ends terminalOf steps
      ((generate grammar).machine.start tokens) (.error error)) :
    (∃ token position state, token ∈ tokens ∧ error = .unexpectedToken token position state) ∨
      (∀ token ∈ tokens, terminalOf token ≠ Terminal.eoi) ∧ error = .unexpectedEnd := by
  obtain ⟨final, reaches, step⟩ := ends.failed
  obtain ⟨read, trees, forest⟩ := exists_forest wellFormed reaches
  have whole := forest.tokens_eq
  have keeps := step_keeps_stack wellFormed reaches
  have stepped := Machine.step_stepped (generate grammar).machine terminalOf final
  rw [step] at stepped
  cases stepped with
  | @unexpectedToken token rest lookahead _ =>
      have member : token ∈ tokens := by simp [← whole, lookahead]
      exact Or.inl ⟨token, _, _, member, rfl⟩
  | unexpectedEnd atEnd =>
      rw [atEnd, List.append_nil] at whole
      exact Or.inr ⟨whole ▸ forest.sentence, rfl⟩
  | emptyStack => exact absurd step keeps.1
  | missingGoto => exact absurd step (keeps.2 _)

/-- A generated table never fails for its stack, whether it has conflicts or not and whatever the
tokens are. At every step of every run, a rule that is to be reduced has fewer symbols than there are
states on the stack, and the state that it uncovers has a goto for its left-hand side. -/
theorem parse_keeps_stack {declarations : List (Declaration α)}
    (accepted : Grammar.ofDeclarations declarations = .ok grammar) (terminalOf : θ → Terminal)
    (tokens : List θ) :
    (generate grammar).parse terminalOf tokens ≠ some (.error .emptyStack) ∧
      (∀ state, (generate grammar).parse terminalOf tokens ≠ some (.error (.missingGoto state))) ∧
      ∀ steps configuration, (generate grammar).machine.Reaches terminalOf steps
          ((generate grammar).machine.start tokens) configuration →
        (generate grammar).machine.step terminalOf configuration ≠ .failed .emptyStack ∧
        (∀ state, (generate grammar).machine.step terminalOf configuration ≠
          .failed (.missingGoto state)) ∧
        ∀ token rest number, configuration.rest = token :: rest →
          (generate grammar).action? configuration.state (terminalOf token) =
              some (.reduce number) →
            ∃ rule top below next, grammar.rule? number = some rule ∧
              rule.right.length < (configuration.state :: configuration.below).length ∧
                (configuration.state :: configuration.below).drop rule.right.length =
                    top :: below ∧
                  (generate grammar).goto? top rule.left = some next := by
  have wellFormed := Grammar.wellFormed_of_declarations accepted
  refine ⟨?_, ?_, ?_⟩
  · intro failed
    obtain ⟨steps, ends⟩ := parse_eq_some_iff.mp failed
    obtain ⟨last, reaches, step⟩ := ends.failed
    exact (step_keeps_stack wellFormed reaches).1 step
  · intro state failed
    obtain ⟨steps, ends⟩ := parse_eq_some_iff.mp failed
    obtain ⟨last, reaches, step⟩ := ends.failed
    exact (step_keeps_stack wellFormed reaches).2 state step
  · intro steps configuration reaches
    have keeps := step_keeps_stack wellFormed reaches
    refine ⟨keeps.1, keeps.2, ?_⟩
    intro token rest number _ inEffect
    exact reduction_uncovers wellFormed reaches inEffect

theorem parse_keeps_stack_sums :
    (generate Grammar.sums).isLR1 = false ∧
      (generate Grammar.sums).parse id [2, 1, 2, 1, 2, 7] ≠ some (.error .emptyStack) := by
  have crowded : (generate Grammar.sums).isLR1 = false := by decide +kernel
  exact ⟨crowded, (parse_keeps_stack Grammar.sums_accepted id [2, 1, 2, 1, 2, 7]).1⟩

end ParseTable

end CoolLang
