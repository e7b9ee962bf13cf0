import CoolLang.ShiftReduce.Replay

/-!
Replays with a reducer that keeps a state. Writing the calls down does not change what a replay returns
(`Machine.replayWith_logged`), a reducer without a state is a case of one with a state
(`Machine.replay_eq_replayWith`), and a replay fails for a call only if a call fails
(`Machine.not_actionFails_replayWith`).
-/

namespace CoolLang

variable {σ τ ν ρ θ υ ε ς : Type} {machine : Machine σ τ ν ρ}
  {reducer : StatefulReducer ς θ ρ υ ε} {operations : List Operation} {bench : Workbench θ ρ υ}

/-! ### One call -/

theorem Workbench.put_cases (bench : Workbench θ ρ υ) (call : Except ε υ × ς) :
    (∃ error, bench.put call = (.error (.action error), call.2)) ∨
      ∃ value, bench.put call = (.ok { bench with values := value :: bench.values }, call.2) := by
  obtain ⟨result, state⟩ := call
  cases result with
  | error error => exact Or.inl ⟨error, rfl⟩
  | ok value => exact Or.inr ⟨value, rfl⟩

theorem Workbench.put_fst_congr {ς' : Type} {call : Except ε υ × ς} {call' : Except ε υ × ς'}
    (same : call.1 = call'.1) : (bench.put call).1 = (bench.put call').1 := by
  obtain ⟨result, state⟩ := call
  obtain ⟨result', state'⟩ := call'
  cases same
  cases result <;> rfl

theorem Workbench.put_snd (call : Except ε υ × ς) : (bench.put call).2 = call.2 := by
  obtain ⟨result, state⟩ := call
  cases result <;> rfl

/-- A reducer of which no call fails. -/
def StatefulReducer.Succeeds (reducer : StatefulReducer ς θ ρ υ ε) : Prop :=
  (∀ token state, ∃ value, (reducer.shift token state).1 = .ok value) ∧
    ∀ rule arguments state, ∃ value, (reducer.reduce rule arguments state).1 = .ok value

theorem Workbench.put_ne_action {call : Except ε υ × ς} (succeeds : ∃ value, call.1 = .ok value)
    (bench : Workbench θ ρ υ) (error : ε) : (bench.put call).1 ≠ .error (.action error) := by
  obtain ⟨result, state⟩ := call
  obtain ⟨value, rfl⟩ := succeeds
  exact nofun

namespace Machine

/-! ### Calls written down -/

theorem operate_logged (machine : Machine σ τ ν ρ) (reducer : StatefulReducer ς θ ρ υ ε)
    (operation : Operation) (bench : Workbench θ ρ υ) (state : ς)
    (calls : List (ReducerCall θ ρ υ)) :
    (machine.operate reducer.logged operation bench (state, calls)).1 =
        (machine.operate reducer operation bench state).1 ∧
      (machine.operate reducer.logged operation bench (state, calls)).2.1 =
        (machine.operate reducer operation bench state).2 := by
  obtain ⟨tokens, rules, values⟩ := bench
  cases operation with
  | shift =>
      cases tokens with
      | nil => exact ⟨rfl, rfl⟩
      | cons token tokens =>
          simp only [operate]
          refine ⟨Workbench.put_fst_congr rfl, ?_⟩
          rw [Workbench.put_snd, Workbench.put_snd]
          rfl
  | reduce =>
      cases rules with
      | nil => exact ⟨rfl, rfl⟩
      | cons rule rules =>
          by_cases few : values.length < (machine.production rule).2
          · simp only [operate, if_pos few, and_self]
          · simp only [operate, if_neg few]
            refine ⟨Workbench.put_fst_congr rfl, ?_⟩
            rw [Workbench.put_snd, Workbench.put_snd]
            rfl

theorem carryOut_logged (reducer : StatefulReducer ς θ ρ υ ε) (state : ς)
    (calls : List (ReducerCall θ ρ υ)) :
    (machine.carryOut reducer.logged operations bench (state, calls)).1 =
      (machine.carryOut reducer operations bench state).1 := by
  induction operations generalizing bench state calls with
  | nil => rfl
  | cons operation operations ih =>
      have same := operate_logged machine reducer operation bench state calls
      unfold carryOut
      generalize machine.operate reducer.logged operation bench (state, calls) = logged at same ⊢
      generalize machine.operate reducer operation bench state = plain at same ⊢
      obtain ⟨result, state', calls'⟩ := logged
      obtain ⟨result', state''⟩ := plain
      obtain ⟨sameResult, sameState⟩ := same
      cases sameResult
      cases sameState
      cases result with
      | ok bench => exact ih state' calls'
      | error error => rfl

theorem replayWith_logged (reducer : StatefulReducer ς θ ρ υ ε) (derivation : Derivation ρ)
    (tokens : List θ) (state : ς) :
    (machine.replayWith reducer.logged derivation tokens (state, [])).1 =
      (machine.replayWith reducer derivation tokens state).1 :=
  congrArg Workbench.root (carryOut_logged reducer state [])

/-! ### Without a state -/

theorem replayFrom_eq_carryOut (reducer : Reducer θ ρ υ ε) (tokens : List θ) (rules : List ρ)
    (values : List υ) :
    machine.replayFrom reducer operations tokens rules values =
      Workbench.root
        (machine.carryOut reducer.stateless operations ⟨tokens, rules, values⟩ ()).1 := by
  induction operations generalizing tokens rules values with
  | nil =>
      unfold replayFrom carryOut Workbench.root
      match values with
      | [] | [_] | _ :: _ :: _ => rfl
  | cons operation operations ih =>
      cases operation with
      | shift =>
          cases tokens with
          | nil => rfl
          | cons token tokens =>
              simp only [replayFrom, carryOut, operate, Reducer.stateless]
              cases reducer.shift token with
              | error error => rfl
              | ok value => exact ih tokens rules (value :: values)
      | reduce =>
          cases rules with
          | nil => rfl
          | cons rule rules =>
              simp only [replayFrom, carryOut, operate, Reducer.stateless, List.length_take]
              by_cases few : values.length < (machine.production rule).2
              · rw [if_pos (by omega), if_pos few]
                rfl
              · rw [if_neg (by omega), if_neg few]
                cases reducer.reduce rule (values.take (machine.production rule).2).reverse with
                | error error => rfl
                | ok value => exact ih tokens rules _

theorem replay_eq_replayWith (reducer : Reducer θ ρ υ ε) (derivation : Derivation ρ)
    (tokens : List θ) :
    machine.replay reducer derivation tokens =
      (machine.replayWith reducer.stateless derivation tokens ()).1 :=
  replayFrom_eq_carryOut reducer tokens derivation.reductions []

/-! ### Results -/

/-- Whether a replay was given up because a call failed. -/
def ActionFails (result : Except (ReplayError ε) υ) : Prop :=
  ∃ error, result = .error (.action error)

/-- What a replay that leaves `count` values returns. -/
def Leaves (result : Except (ReplayError ε) υ) (count : Nat) : Prop :=
  ((∃ root, result = .ok root) ↔ count = 1) ∧
    (count ≠ 1 → result = .error (.unexpectedRoots count))

theorem leaves_root (tokens : List θ) (rules : List ρ) (values : List υ) :
    Leaves (Workbench.root (.ok ⟨tokens, rules, values⟩ : Except (ReplayError ε) _))
      values.length := by
  unfold Leaves Workbench.root
  match values with
  | [] | [_] | _ :: _ :: _ => simp

theorem carryOut_snoc (operation : Operation) (bench : Workbench θ ρ υ) (state : ς) :
    machine.carryOut reducer (operations ++ [operation]) bench state =
      match machine.carryOut reducer operations bench state with
      | (.ok bench, state) => machine.operate reducer operation bench state
      | (.error error, state) => (.error error, state) := by
  induction operations generalizing bench state with
  | nil =>
      simp only [List.nil_append, carryOut]
      split <;> rename_i result <;> rw [result]
  | cons first operations ih =>
      rw [List.cons_append, carryOut, carryOut]
      cases machine.operate reducer first bench state with
      | mk result after =>
          cases result with
          | ok bench => exact ih bench after
          | error error => rfl

theorem operate_ne_action (machine : Machine σ τ ν ρ) {reducer : StatefulReducer ς θ ρ υ ε}
    (succeeds : reducer.Succeeds) (operation : Operation) (bench : Workbench θ ρ υ) (state : ς)
    (error : ε) :
    (machine.operate reducer operation bench state).1 ≠ .error (.action error) := by
  obtain ⟨tokens, rules, values⟩ := bench
  cases operation with
  | shift =>
      cases tokens with
      | nil => exact nofun
      | cons token tokens =>
          simp only [operate]
          exact Workbench.put_ne_action (succeeds.1 token state) _ error
  | reduce =>
      cases rules with
      | nil => exact nofun
      | cons rule rules =>
          by_cases few : values.length < (machine.production rule).2
          · simp only [operate, if_pos few]
            exact nofun
          · simp only [operate, if_neg few]
            exact Workbench.put_ne_action (succeeds.2 rule _ state) _ error

theorem carryOut_ne_action (succeeds : reducer.Succeeds) (state : ς) (error : ε) :
    (machine.carryOut reducer operations bench state).1 ≠ .error (.action error) := by
  induction operations generalizing bench state with
  | nil => exact nofun
  | cons operation operations ih =>
      have succeeded := operate_ne_action machine succeeds operation bench state error
      unfold carryOut
      split
      · exact ih _
      · rename_i result
        rw [result] at succeeded
        exact succeeded

theorem root_ne_action {result : Except (ReplayError ε) (Workbench θ ρ υ)} {error : ε}
    (unfailing : result ≠ .error (.action error)) :
    Workbench.root result ≠ .error (.action error) := by
  intro failed
  unfold Workbench.root at failed
  split at failed
  · cases failed
  · cases failed
  · cases failed
    exact unfailing rfl

theorem not_actionFails_replayWith (succeeds : reducer.Succeeds) (derivation : Derivation ρ)
    (tokens : List θ) (state : ς) :
    ¬ActionFails (machine.replayWith reducer derivation tokens state).1 := by
  rintro ⟨error, failed⟩
  exact root_ne_action (carryOut_ne_action succeeds state error) failed

end Machine

end CoolLang
