import CoolLang.Proofs.Counting
import CoolLang.Proofs.ShiftReduce.Run

/-!
Reductions under one lookahead, on bare stacks, whatever the table. They depend on the top of the stack
only, so what settles on a stack settles above any other (`Machine.Settles.of_append`). A state that
comes to lie above another one therefore settles sooner, when each is alone
(`Machine.Piled.pairwise_sooner`), and so a pile of states is known by which states are in it.
-/

namespace CoolLang

namespace Machine

variable {σ τ ν ρ : Type} {machine : Machine σ τ ν ρ} {terminal : τ}
  {stack next last other base : List σ} {steps more : Nat}

/-- One reduction, the latest state first. -/
inductive Reduces (machine : Machine σ τ ν ρ) (terminal : τ) : List σ → List σ → Prop where
  | intro {state : σ} {below : List σ} {rule : ρ} {top : σ} {rest : List σ} {next : σ}
      (inEffect : machine.action state terminal = some (.reduce rule))
      (uncovered : (state :: below).drop (machine.production rule).2 = top :: rest)
      (goto : machine.goto top (machine.production rule).1 = some next) :
      Reduces machine terminal (state :: below) (next :: top :: rest)

inductive ReducesIn (machine : Machine σ τ ν ρ) (terminal : τ) :
    Nat → List σ → List σ → Prop where
  | refl (stack : List σ) : ReducesIn machine terminal 0 stack stack
  | head {first second last : List σ} {steps : Nat} (step : Reduces machine terminal first second)
      (others : ReducesIn machine terminal steps second last) :
      ReducesIn machine terminal (steps + 1) first last

/-- After that many reductions there is no further one. -/
def Settles (machine : Machine σ τ ν ρ) (terminal : τ) (steps : Nat) (stack last : List σ) : Prop :=
  ReducesIn machine terminal steps stack last ∧ ∀ next, ¬Reduces machine terminal last next

theorem Reduces.unique (step : Reduces machine terminal stack next)
    (step' : Reduces machine terminal stack other) : next = other := by
  cases step with
  | intro inEffect uncovered goto =>
      cases step' with
      | intro inEffect' uncovered' goto' =>
          rw [inEffect] at inEffect'
          cases inEffect'
          rw [uncovered] at uncovered'
          cases uncovered'
          rw [goto] at goto'
          cases goto'
          rfl

theorem Reduces.append (step : Reduces machine terminal stack next) (base : List σ) :
    Reduces machine terminal (stack ++ base) (next ++ base) := by
  cases step with
  | @intro state below rule top rest next inEffect uncovered goto =>
      have inside : (machine.production rule).2 ≤ (state :: below).length := by
        have count := congrArg List.length uncovered
        simp only [List.length_drop, List.length_cons] at count ⊢
        omega
      have wider : (state :: (below ++ base)).drop (machine.production rule).2 =
          top :: (rest ++ base) := by
        rw [← List.cons_append, List.drop_append_of_le_length inside, uncovered]
        rfl
      exact .intro inEffect wider goto

/-- What a reduction does not reach down to may be taken away. -/
theorem Reduces.narrow {state : σ} {below kept : List σ} {rule : ρ} {top : σ} {rest : List σ}
    {next : σ} (inEffect : machine.action state terminal = some (.reduce rule))
    (uncovered : (state :: below).drop (machine.production rule).2 = top :: rest)
    (goto : machine.goto top (machine.production rule).1 = some next)
    (whole : state :: below = kept ++ base) (inside : (machine.production rule).2 < kept.length) :
    Reduces machine terminal kept (next :: kept.drop (machine.production rule).2) := by
  rw [whole, List.drop_append_of_le_length (Nat.le_of_lt inside)] at uncovered
  cases kept with
  | nil => exact absurd inside (Nat.not_lt_zero _)
  | cons head tail =>
      cases whole
      cases remaining : (state :: tail).drop (machine.production rule).2 with
      | nil =>
          have all := List.drop_eq_nil_iff.mp remaining
          omega
      | cons top' rest' =>
          rw [remaining] at uncovered
          cases uncovered
          exact .intro inEffect remaining goto

theorem ReducesIn.trans (front : ReducesIn machine terminal steps stack next)
    (back : ReducesIn machine terminal more next last) :
    ReducesIn machine terminal (steps + more) stack last := by
  induction front with
  | refl => rwa [Nat.zero_add]
  | head step _ ih =>
      rw [Nat.add_right_comm]
      exact .head step (ih back)

theorem ReducesIn.snoc (front : ReducesIn machine terminal steps stack next)
    (step : Reduces machine terminal next last) :
    ReducesIn machine terminal (steps + 1) stack last :=
  front.trans (.head step (.refl last))

/-- What has been reduced on the way to settling settles alike. -/
theorem Settles.after (settles : Settles machine terminal more stack last)
    (front : ReducesIn machine terminal steps stack next) :
    ∃ others, more = steps + others ∧ Settles machine terminal others next last := by
  induction front generalizing more with
  | refl => exact ⟨more, (Nat.zero_add _).symm, settles⟩
  | head step _ ih =>
      obtain ⟨reduces, final⟩ := settles
      cases reduces with
      | refl => exact absurd step (final _)
      | head step' others =>
          cases step.unique step'
          obtain ⟨rest, rfl, settles⟩ := ih ⟨others, final⟩
          exact ⟨rest, Nat.add_right_comm _ _ _, settles⟩

theorem Settles.before (settles : Settles machine terminal more next last)
    (front : ReducesIn machine terminal steps stack next) :
    Settles machine terminal (steps + more) stack last :=
  ⟨front.trans settles.1, settles.2⟩

theorem Settles.unique (settles : Settles machine terminal steps stack last)
    (settles' : Settles machine terminal more stack other) : steps = more := by
  obtain ⟨others, rfl, reduces, _⟩ := settles'.after settles.1
  cases reduces with
  | refl => rfl
  | head step => exact absurd step (settles.2 _)

/-- A stack settles no later than it does above others. -/
theorem Settles.of_append (settles : Settles machine terminal steps (stack ++ base) last) :
    ∃ fewer ≤ steps, ∃ last, Settles machine terminal fewer stack last := by
  induction steps generalizing stack with
  | zero =>
      refine ⟨0, Nat.le_refl _, stack, .refl stack, ?_⟩
      intro next step
      obtain ⟨others, impossible, _⟩ := settles.after (.head (step.append base) (.refl _))
      omega
  | succ steps ih =>
      by_cases reduces : ∃ next, Reduces machine terminal stack next
      · obtain ⟨next, step⟩ := reduces
        obtain ⟨others, count, settles⟩ := settles.after (.head (step.append base) (.refl _))
        obtain rfl : steps = others := by omega
        obtain ⟨fewer, few, last, settles⟩ := ih settles
        exact ⟨fewer + 1, Nat.succ_le_succ few, last, .head step settles.1, settles.2⟩
      · exact ⟨0, Nat.zero_le _, stack, .refl stack, fun next step => reduces ⟨next, step⟩⟩

/-! ### Piles -/

/-- A pile: each state has come to lie on every one below it by reductions that began with that one on
top and left it in place. -/
def Piled (machine : Machine σ τ ν ρ) (terminal : τ) : List σ → Prop
  | [] => True
  | top :: below => Piled machine terminal below ∧
      ∀ between state rest, below = between ++ state :: rest →
        ∃ steps, ReducesIn machine terminal (steps + 1) [state] (top :: between ++ [state])

theorem Piled.nil : Piled machine terminal [] := trivial

theorem Piled.single (state : σ) : Piled machine terminal [state] := by
  refine ⟨trivial, ?_⟩
  intro between other rest impossible
  simp at impossible

theorem Piled.of_append {upper : List σ} (piled : Piled machine terminal (upper ++ stack)) :
    Piled machine terminal stack := by
  induction upper with
  | nil => exact piled
  | cons top upper ih => exact ih piled.1

/-- The top of a pile has come to lie on any state in it. -/
theorem Piled.reducesIn {upper rest : List σ} {state : σ}
    (piled : Piled machine terminal (upper ++ state :: rest)) :
    ∃ steps, ReducesIn machine terminal steps [state] (upper ++ [state]) := by
  cases upper with
  | nil => exact ⟨0, .refl _⟩
  | cons top between =>
      obtain ⟨steps, reduces⟩ := piled.2 between state rest rfl
      exact ⟨steps + 1, reduces⟩

/-- Alone, the first state settles in fewer reductions than the second. -/
def Sooner (machine : Machine σ τ ν ρ) (terminal : τ) (first second : σ) : Prop :=
  ∃ steps last more last', Settles machine terminal steps [first] last ∧
    Settles machine terminal more [second] last' ∧ steps < more

theorem Sooner.asymm {first second : σ} (sooner : Sooner machine terminal first second) :
    ¬Sooner machine terminal second first := by
  rintro ⟨steps, _, more, _, settles, settles', less⟩
  obtain ⟨steps', _, more', _, settlesFirst, settlesSecond, less'⟩ := sooner
  have sameSecond := settles.unique settlesSecond
  have sameFirst := settles'.unique settlesFirst
  omega

/-- Whatever lies above a state settles sooner. -/
theorem sooner_of_reducesIn {top state : σ} {between : List σ}
    (reduces : ReducesIn machine terminal (steps + 1) [state] (top :: between ++ [state]))
    (settles : Settles machine terminal more [state] last) : Sooner machine terminal top state := by
  obtain ⟨others, count, settles'⟩ := settles.after reduces
  have single : top :: between ++ [state] = [top] ++ (between ++ [state]) := rfl
  rw [single] at settles'
  obtain ⟨fewer, few, last', settlesTop⟩ := settles'.of_append
  exact ⟨fewer, last', more, last, settlesTop, settles, by omega⟩

/-- The states of a pile that settles above a base settle alone. -/
theorem Piled.settles (piled : Piled machine terminal stack)
    (settles : Settles machine terminal steps (stack ++ base) last) :
    ∀ state ∈ stack, ∃ more last, Settles machine terminal more [state] last := by
  cases stack with
  | nil =>
      intro state impossible
      cases impossible
  | cons top below =>
      intro state member
      rcases List.mem_cons.mp member with rfl | inBelow
      · have whole : state :: below ++ base = [state] ++ (below ++ base) := rfl
        rw [whole] at settles
        obtain ⟨fewer, _, last, settles⟩ := settles.of_append
        exact ⟨fewer, last, settles⟩
      · obtain ⟨between, rest, rfl⟩ := List.append_of_mem inBelow
        obtain ⟨count, reduces⟩ := piled.2 between state rest rfl
        have whole : top :: (between ++ state :: rest) ++ base =
            (top :: between ++ [state]) ++ (rest ++ base) := by simp
        rw [whole] at settles
        obtain ⟨fewer, _, last, settles⟩ := settles.of_append
        exact ⟨_, last, settles.before reduces⟩

theorem Piled.pairwise_sooner (piled : Piled machine terminal stack)
    (settle : ∀ state ∈ stack, ∃ more last, Settles machine terminal more [state] last) :
    stack.Pairwise (Sooner machine terminal) := by
  induction stack with
  | nil => exact .nil
  | cons top below ih =>
      refine .cons ?_ (ih piled.1 fun state inBelow => settle state (List.mem_cons_of_mem _ inBelow))
      intro state inBelow
      obtain ⟨more, last, settles⟩ := settle state (List.mem_cons_of_mem _ inBelow)
      obtain ⟨between, rest, rfl⟩ := List.append_of_mem inBelow
      obtain ⟨count, reduces⟩ := piled.2 between state rest rfl
      exact sooner_of_reducesIn reduces settles

end Machine

end CoolLang
