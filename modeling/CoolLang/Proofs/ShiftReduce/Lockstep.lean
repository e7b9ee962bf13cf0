import CoolLang.Proofs.ShiftReduce.Run
import CoolLang.Proofs.ShiftReduce.StatefulReplay
import CoolLang.ShiftReduce.ParseTree

/-!
A machine and the replay of its record stay in step, whatever the machine's table. What a run records
can be carried out on a stack that starts empty, and the record says how high the stack is then
(`Machine.Feasible`): it holds the states above the initial one on the machine's side
(`Machine.Reaches.piles_from_start`) and the values on the side of the replay
(`Machine.Feasible.carryOut`). So a replay runs out of nothing, and it ends with one root exactly where
the machine accepted with one state above the initial one (`Machine.replay_in_step`).
-/

namespace CoolLang

variable {σ τ ν ρ θ υ ε ς : Type} {machine : Machine σ τ ν ρ}

namespace Machine

/-! ### Records that can be carried out -/

/-- `Feasible machine operations rules shifts height`: the operations and rules, latest first, make that
many shifts, no reduction takes more from the stack than is on it, and the stack has that height
afterwards. -/
inductive Feasible (machine : Machine σ τ ν ρ) : List Operation → List ρ → Nat → Nat → Prop where
  | start : Feasible machine [] [] 0 0
  | shift {operations : List Operation} {rules : List ρ} {shifts height : Nat}
      (before : Feasible machine operations rules shifts height) :
      Feasible machine (.shift :: operations) rules (shifts + 1) (height + 1)
  | reduce {operations : List Operation} {rules : List ρ} {shifts height : Nat} {rule : ρ}
      (before : Feasible machine operations rules shifts height)
      (enough : (machine.production rule).2 ≤ height) :
      Feasible machine (.reduce :: operations) (rule :: rules) shifts
        (height - (machine.production rule).2 + 1)

theorem Feasible.counts {operations : List Operation} {rules : List ρ} {shifts height : Nat}
    (feasible : Feasible machine operations rules shifts height) :
    operations.count .shift = shifts ∧ operations.count .reduce = rules.length := by
  induction feasible with
  | start => exact ⟨rfl, rfl⟩
  | shift _ ih =>
      rw [List.count_cons_self, List.count_cons_of_ne (by decide)]
      exact ⟨congrArg (· + 1) ih.1, ih.2⟩
  | reduce _ _ ih =>
      rw [List.count_cons_self, List.count_cons_of_ne (by decide)]
      exact ⟨ih.1, congrArg (· + 1) ih.2⟩

/-! ### The machine's side -/

section Run

variable {terminalOf : θ → τ} {first last : Configuration σ θ ρ} {steps : Nat}

/-- The states above the initial one, with a record that leaves as many of them. -/
def Piles (machine : Machine σ τ ν ρ) (configuration : Configuration σ θ ρ) (above : List σ) :
    Prop :=
  configuration.state :: configuration.below = above ++ [machine.initial] ∧
    Feasible machine configuration.operations configuration.reductions configuration.position
      above.length

theorem Piles.step {above : List σ} (piles : machine.Piles first above)
    (step : machine.step terminalOf first = .next last) : ∃ above', machine.Piles last above' := by
  obtain ⟨stack, feasible⟩ := piles
  have stepped := step_stepped machine terminalOf first
  rw [step] at stepped
  cases stepped with
  | @shift token rest next =>
      refine ⟨next :: above, ?_, feasible.shift⟩
      rw [List.cons_append, ← stack]
      rfl
  | @reduce token rest rule left count top next below _ _ production uncovered _ =>
      -- a state is uncovered, so the initial one is not among those taken off
      have enough : count ≤ above.length := by
        have taken := congrArg List.length uncovered
        rw [stack, List.length_drop, List.length_append, List.length_singleton,
          List.length_cons] at taken
        omega
      rw [stack, List.drop_append_of_le_length enough] at uncovered
      have inside : (machine.production rule).2 ≤ above.length := by
        rw [production]
        exact enough
      have reduced := feasible.reduce inside
      rw [production] at reduced
      refine ⟨next :: above.drop count, ?_, ?_⟩
      · rw [List.cons_append, uncovered]
        rfl
      · rw [List.length_cons, List.length_drop]
        exact reduced

theorem Reaches.piles (reaches : Reaches machine terminalOf steps first last) {above : List σ}
    (piles : machine.Piles first above) : ∃ above', machine.Piles last above' := by
  induction reaches generalizing above with
  | refl => exact ⟨above, piles⟩
  | head step _ ih =>
      obtain ⟨above, piles⟩ := piles.step step
      exact ih piles

theorem Reaches.piles_from_start {tokens : List θ}
    (reaches : Reaches machine terminalOf steps (machine.start tokens) last) :
    ∃ above, machine.Piles last above := by
  have start : machine.Piles (machine.start tokens) [] := ⟨rfl, .start⟩
  exact reaches.piles start

end Run

/-! ### The side of the replay -/

section Replay

variable {reducer : StatefulReducer ς θ ρ υ ε} {operations : List Operation} {rules later : List ρ}
  {shifts height : Nat} {tokens : List θ} {calls : List (ReducerCall θ ρ υ)}

/-- What the calls of a replay are: one for each operation in order, the shifts of the tokens in order,
the reductions of the rules in order, with as many arguments as the rules have symbols. -/
structure Accounts (machine : Machine σ τ ν ρ) (operations : List Operation) (rules : List ρ)
    (tokens : List θ) (calls : List (ReducerCall θ ρ υ)) : Prop where
  operations_eq : calls.map ReducerCall.operation = operations
  tokens_eq : calls.filterMap ReducerCall.token? = tokens
  rules_eq : calls.filterMap ReducerCall.rule? = rules
  arguments_length : ∀ rule arguments, .reduce rule arguments ∈ calls →
    arguments.length = (machine.production rule).2

/-- One more call is accounted for, with as many arguments as its rule has symbols. -/
theorem Accounts.snoc (accounts : machine.Accounts operations rules tokens calls) (call : ReducerCall θ ρ υ)
    (count : ∀ rule arguments, call = .reduce rule arguments → arguments.length = (machine.production rule).2) :
    machine.Accounts (operations ++ [call.operation]) (rules ++ call.rule?.toList) (tokens ++ call.token?.toList)
      (calls ++ [call]) where
  operations_eq := by rw [List.map_append, accounts.operations_eq, List.map_singleton]
  tokens_eq := by
    rw [List.filterMap_append, accounts.tokens_eq]
    cases call <;> rfl
  rules_eq := by
    rw [List.filterMap_append, accounts.rules_eq]
    cases call <;> rfl
  arguments_length := by
    intro rule arguments member
    rcases List.mem_append.mp member with before | isLast
    · exact accounts.arguments_length rule arguments before
    · exact count rule arguments (List.mem_singleton.mp isLast).symm

/-- What can be carried out is, unless a call fails. -/
theorem Feasible.carryOut (feasible : Feasible machine operations rules shifts height)
    (enough : shifts ≤ tokens.length) (later : List ρ)
    (reducer : StatefulReducer ς θ ρ υ ε) (state : ς) :
    (∃ error after, machine.carryOut reducer.logged operations.reverse
          ⟨tokens, rules.reverse ++ later, []⟩ (state, []) = (.error (.action error), after)) ∨
      ∃ values after calls, machine.carryOut reducer.logged operations.reverse
            ⟨tokens, rules.reverse ++ later, []⟩ (state, []) =
          (.ok ⟨tokens.drop shifts, later, values⟩, after, calls) ∧
        values.length = height ∧
          machine.Accounts operations.reverse rules.reverse (tokens.take shifts) calls := by
  -- the record is latest first, so the last operation is carried out after what the induction covers
  induction feasible generalizing later with
  | start =>
      refine Or.inr ⟨[], state, [], rfl, rfl, rfl, rfl, rfl, ?_⟩
      intro rule arguments impossible
      cases impossible
  | @shift operations rules shifts height _ ih =>
      rw [List.reverse_cons, carryOut_snoc]
      rcases ih (Nat.le_of_succ_le enough) later with ⟨error, after, failed⟩ |
        ⟨values, after, calls, carried, isHeight, accounts⟩
      · rw [failed]
        exact Or.inl ⟨error, after, rfl⟩
      · rw [carried]
        have present : shifts < tokens.length := enough
        simp only [operate, List.drop_eq_getElem_cons present]
        rcases Workbench.put_cases ⟨tokens.drop (shifts + 1), later, values⟩
          (reducer.logged.shift tokens[shifts] (after, calls)) with ⟨error, put⟩ | ⟨value, put⟩
        · rw [put]
          exact Or.inl ⟨error, _, rfl⟩
        · rw [put]
          refine Or.inr ⟨value :: values, _, _, rfl, congrArg (· + 1) isHeight, ?_⟩
          have shifted := accounts.snoc (.shift tokens[shifts]) fun _ _ impossible => by cases impossible
          rw [← List.take_append_getElem present]
          rwa [ReducerCall.rule?, Option.toList_none, List.append_nil] at shifted
  | @reduce operations rules shifts height rule _ inside ih =>
      rw [List.reverse_cons, List.reverse_cons, carryOut_snoc, List.append_assoc]
      rcases ih enough ([rule] ++ later) with ⟨error, after, failed⟩ |
        ⟨values, after, calls, carried, isHeight, accounts⟩
      · rw [failed]
        exact Or.inl ⟨error, after, rfl⟩
      · rw [carried]
        have few : ¬values.length < (machine.production rule).2 := by omega
        simp only [operate, List.singleton_append, if_neg few]
        rcases Workbench.put_cases
            ⟨tokens.drop shifts, later, values.drop (machine.production rule).2⟩
            (reducer.logged.reduce rule (values.take (machine.production rule).2).reverse
              (after, calls)) with ⟨error, put⟩ | ⟨value, put⟩
        · rw [put]
          exact Or.inl ⟨error, _, rfl⟩
        · rw [put]
          have count : (values.take (machine.production rule).2).reverse.length = (machine.production rule).2 := by
            rw [List.length_reverse, List.length_take]
            omega
          have reduced := accounts.snoc (.reduce rule (values.take (machine.production rule).2).reverse)
            fun _ _ same => by
              cases same
              exact count
          rw [ReducerCall.token?, Option.toList_none, List.append_nil] at reduced
          refine Or.inr ⟨_, _, _, rfl, ?_, reduced⟩
          rw [List.length_cons, List.length_drop, isHeight]

/-- A replay of what can be carried out makes the calls that the record says, unless one fails. -/
theorem Feasible.replayWith (feasible : Feasible machine operations rules shifts height)
    (enough : shifts ≤ tokens.length) (reducer : StatefulReducer ς θ ρ υ ε) (state : ς)
    (unfailing : ¬ActionFails
      (machine.replayWith reducer ⟨rules.reverse, operations.reverse⟩ tokens state).1) :
    Leaves (machine.replayWith reducer ⟨rules.reverse, operations.reverse⟩ tokens state).1 height ∧
      machine.Accounts operations.reverse rules.reverse (tokens.take shifts)
        (machine.replayCalls reducer ⟨rules.reverse, operations.reverse⟩ tokens state) := by
  have outcome := feasible.carryOut enough [] reducer state
  rw [List.append_nil] at outcome
  rw [← replayWith_logged] at unfailing ⊢
  unfold Machine.replayCalls
  unfold Machine.replayWith at unfailing ⊢
  dsimp only at unfailing ⊢
  rcases outcome with ⟨error, after, failed⟩ | ⟨values, after, calls, carried, isHeight, accounts⟩
  · rw [failed] at unfailing
    exact absurd ⟨error, rfl⟩ unfailing
  · rw [carried, ← isHeight]
    exact ⟨leaves_root _ _ values, accounts⟩

end Replay

theorem accepted_of_step {terminalOf : θ → τ} {last : Configuration σ θ ρ}
    {derivation : Derivation ρ} (step : machine.step terminalOf last = .accepted derivation) :
    (∃ token rest, last.rest = token :: rest) ∧ last.derivation = derivation := by
  have stepped := step_stepped machine terminalOf last
  rw [step] at stepped
  cases stepped with
  | accept lookahead => exact ⟨⟨_, _, lookahead⟩, rfl⟩

/-- A run that accepts and the replay of its record are in step, on every table. The record has an
operation for each reduction and one for each of some tokens, not all. Unless one of the reducer's
calls fails, a replay makes one call for each operation: the shifts are of the first tokens, each once
and in order, the reductions of the recorded rules, in order and with as many arguments as the table
says. It returns a root exactly if one state is above the initial one when the machine accepts, and
otherwise says how many are. -/
theorem replay_in_step (machine : Machine σ τ ν ρ) (terminalOf : θ → τ) {fuel : Nat}
    {tokens : List θ} {derivation : Derivation ρ}
    (accepted : machine.run terminalOf fuel tokens = some (.ok derivation)) :
    derivation.operations.count .reduce = derivation.reductions.length ∧
      derivation.operations.count .shift < tokens.length ∧
      ∃ steps last above, machine.Reaches terminalOf steps (machine.start tokens) last ∧
        machine.step terminalOf last = .accepted derivation ∧
        last.state :: last.below = above ++ [machine.initial] ∧
        (∀ (υ ε : Type) (reducer : Reducer θ ρ υ ε),
          ¬ActionFails (machine.replay reducer derivation tokens) →
            Leaves (machine.replay reducer derivation tokens) above.length) ∧
        ∀ (ς υ ε : Type) (reducer : StatefulReducer ς θ ρ υ ε) (state : ς),
          (reducer.Succeeds →
            ¬ActionFails (machine.replayWith reducer derivation tokens state).1) ∧
          (¬ActionFails (machine.replayWith reducer derivation tokens state).1 →
            Leaves (machine.replayWith reducer derivation tokens state).1 above.length ∧
              machine.Accounts derivation.operations derivation.reductions
                (tokens.take (derivation.operations.count .shift))
                (machine.replayCalls reducer derivation tokens state)) := by
  obtain ⟨steps, _, ends⟩ := runFrom_eq_some_iff.mp accepted
  obtain ⟨last, reaches, step⟩ := ends.accepted
  obtain ⟨⟨token, rest, lookahead⟩, rfl⟩ := accepted_of_step step
  obtain ⟨above, stack, feasible⟩ := reaches.piles_from_start
  obtain ⟨shifts, reduces⟩ := feasible.counts
  obtain ⟨read, whole, position⟩ := reaches.read_from_start
  have inTokens : last.position < tokens.length := by
    rw [whole, lookahead, List.length_append, List.length_cons, position]
    omega
  have shifts' : last.derivation.operations.count .shift = last.position := by
    rw [Configuration.derivation, List.count_reverse, shifts]
  rw [shifts']
  refine ⟨?_, inTokens, steps, last, above, reaches, step, stack, ?_, ?_⟩
  · rw [Configuration.derivation, List.count_reverse, List.length_reverse, reduces]
  · intro υ ε reducer
    rw [replay_eq_replayWith]
    intro unfailing
    exact (feasible.replayWith (Nat.le_of_lt inTokens) reducer.stateless () unfailing).1
  · intro ς υ ε reducer state
    constructor
    · intro succeeds
      exact not_actionFails_replayWith succeeds last.derivation tokens state
    · intro unfailing
      exact feasible.replayWith (Nat.le_of_lt inTokens) reducer state unfailing

/-- A table that no grammar has: it accepts with two states above the initial one. -/
def lawless : Machine Nat Nat Nat RuleId where
  initial := 0
  action state terminal :=
    if terminal = 1 then some (.shift (state + 1))
    else if state = 9 then some .accept
    else some (.reduce 0)
  goto _ _ := some 9
  production _ := (0, 2)

theorem replay_in_step_lawless :
    lawless.run id 5 [1, 1, 1, 0] = some (.ok ⟨[0], [.shift, .shift, .shift, .reduce]⟩) ∧
      lawless.Accounts [.shift, .shift, .shift, .reduce] [0] [1, 1, 1]
        (lawless.replayCalls (ParseTree.builder : Reducer Nat RuleId _ Empty).stateless
          ⟨[0], [.shift, .shift, .shift, .reduce]⟩ [1, 1, 1, 0] ()) := by
  have accepted : lawless.run id 5 [1, 1, 1, 0] =
      some (.ok ⟨[0], [.shift, .shift, .shift, .reduce]⟩) := rfl
  obtain ⟨_, _, _, _, _, _, _, _, _, replays⟩ := replay_in_step lawless id accepted
  obtain ⟨unfailing, inStep⟩ := replays Unit _ Empty
    (ParseTree.builder : Reducer Nat RuleId _ Empty).stateless ()
  have succeeds : (ParseTree.builder : Reducer Nat RuleId (ParseTree Nat) Empty).stateless.Succeeds :=
    ⟨fun token _ => ⟨.leaf token, rfl⟩, fun rule children _ => ⟨.node rule children, rfl⟩⟩
  exact ⟨accepted, (inStep (unfailing succeeds)).2⟩

end Machine

end CoolLang
