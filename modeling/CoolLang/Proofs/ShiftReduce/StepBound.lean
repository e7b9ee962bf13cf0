import CoolLang.Automaton.Table
import CoolLang.Proofs.ShiftReduce.Reduction

/-!
The step limit of a table is never in the way. Of the states in a pile each settles sooner than the
next, so between two reductions that reach further down the stack at most as many piles occur as there
are sets of states (`Machine.Settles.bound`). A run that ends therefore ends within the step limit
(`ParseTable.parse_eq_some_iff`), with conflicts or without.
-/

namespace CoolLang

namespace Machine

variable {σ τ ν ρ : Type} {machine : Machine σ τ ν ρ} {terminal : τ}
  {pile base last next : List σ} {floor : σ} {steps : Nat}

/-- A reduction either leaves the floor under a pile in place or starts a new pile further down. -/
theorem Piled.step (piled : Piled machine terminal pile)
    (step : Reduces machine terminal (pile ++ floor :: base) next) :
    (∃ pile', next = pile' ++ floor :: base ∧ Piled machine terminal pile') ∨
      ∃ top floor' base', next = [top] ++ floor' :: base' ∧ base'.length < base.length := by
  generalize whole : pile ++ floor :: base = stack at step
  cases step with
  | @intro state below rule top rest next inEffect uncovered goto =>
      by_cases inside : (machine.production rule).2 ≤ pile.length
      · left
        obtain ⟨front, back, rfl, reach⟩ : ∃ front back, pile = front ++ back ∧
            front.length = (machine.production rule).2 :=
          ⟨_, _, (List.take_append_drop _ pile).symm, List.length_take_of_le inside⟩
        refine ⟨next :: back, ?_, piled.of_append, ?_⟩
        · rw [← whole, List.append_assoc, List.drop_left' reach] at uncovered
          rw [← uncovered]
          rfl
        · rintro between state' rest' rfl
          -- the reduction happens above `state'`, to where the pile has come from `state'` alone
          rw [← List.append_assoc] at piled whole
          obtain ⟨steps, reduces⟩ := piled.reducesIn
          have shape : state :: below = (front ++ between ++ [state']) ++ (rest' ++ floor :: base) := by
            rw [← whole]
            simp
          have step := Reduces.narrow inEffect uncovered goto shape (by simp; omega)
          rw [List.append_assoc, List.drop_left' reach] at step
          rw [List.append_assoc] at reduces
          exact ⟨steps, reduces.snoc step⟩
      · right
        refine ⟨next, top, rest, rfl, ?_⟩
        have count := congrArg List.length uncovered
        rw [← whole] at count
        simp only [List.length_drop, List.length_append, List.length_cons] at count
        omega

/-! ### Reductions of a run -/

variable {θ : Type} {terminalOf : θ → τ} {first : Configuration σ θ ρ} {token : θ} {rest : List θ}
  {result : Except (ParseError σ θ) (Derivation ρ)}

theorem Reduces.exists_step (lookahead : first.rest = token :: rest)
    (reduces : Reduces machine (terminalOf token) (first.state :: first.below) next) :
    ∃ second, machine.step terminalOf first = .next second ∧ second.rest = token :: rest ∧
      second.state :: second.below = next := by
  cases reduces with
  | intro inEffect uncovered goto =>
      exact ⟨_, step_of_reduce lookahead inEffect rfl uncovered goto, lookahead, rfl⟩

/-- The reductions of a run under its first lookahead. -/
theorem Ends.exists_settles (lookahead : first.rest = token :: rest)
    (ends : machine.Ends terminalOf steps first result) :
    ∃ count others last, steps = count + others ∧ last.rest = token :: rest ∧
      machine.Ends terminalOf others last result ∧
      Settles machine (terminalOf token) count (first.state :: first.below)
        (last.state :: last.below) := by
  induction steps generalizing first with
  | zero =>
      refine ⟨0, 0, first, rfl, lookahead, ends, .refl _, ?_⟩
      intro next reduces
      obtain ⟨second, step, _⟩ := reduces.exists_step lookahead
      obtain ⟨others, impossible, _⟩ := ends.after (.single step)
      omega
  | succ steps ih =>
      by_cases reducible :
          ∃ next, Reduces machine (terminalOf token) (first.state :: first.below) next
      · obtain ⟨next, reduces⟩ := reducible
        obtain ⟨second, step, lookahead', rfl⟩ := reduces.exists_step lookahead
        obtain ⟨others, same, ends'⟩ := ends.after (.single step)
        obtain rfl : steps = others := by omega
        obtain ⟨count, others, last, rfl, final, ends'', settles⟩ := ih lookahead' ends'
        refine ⟨count + 1, others, last, Nat.add_right_comm _ _ _, final, ends'', ?_⟩
        exact ⟨.head reduces settles.1, settles.2⟩
      · refine ⟨0, steps + 1, first, (Nat.zero_add _).symm, lookahead, ends, .refl _, ?_⟩
        intro next reduces
        exact reducible ⟨next, reduces⟩

/-- Where nothing is to be reduced, a run stops or shifts. -/
theorem Ends.eq_zero_or_shift (lookahead : first.rest = token :: rest)
    (final : ∀ next, ¬Reduces machine (terminalOf token) (first.state :: first.below) next)
    (ends : machine.Ends terminalOf steps first result) :
    steps = 0 ∨ ∃ more next, steps = 1 + more ∧
      machine.Ends terminalOf more (first.shift rest next) result := by
  have stepped := step_stepped machine terminalOf first
  cases step : machine.step terminalOf first with
  | accepted derivation => exact Or.inl (ends.eq_of_stops (by rw [step]; rfl)).1
  | failed error => exact Or.inl (ends.eq_of_stops (by rw [step]; rfl)).1
  | next second =>
      rw [step] at stepped
      obtain ⟨more, same, ends'⟩ := ends.after (.single step)
      cases stepped with
      | @shift _ _ next lookahead' _ =>
          rw [lookahead] at lookahead'
          cases lookahead'
          exact Or.inr ⟨more, next, same, ends'⟩
      | reduce lookahead' inEffect production uncovered goto =>
          rw [lookahead] at lookahead'
          cases lookahead'
          have count := congrArg Prod.snd production
          have left := congrArg Prod.fst production
          dsimp only at count left
          rw [← count] at uncovered
          rw [← left] at goto
          exact absurd (.intro inEffect uncovered goto) (final _)

/-! ### Counting piles -/

section Counting

variable {states : Finset σ}

/-- A state that a pile has come to lie on reduces. -/
theorem Piled.mem_below {top : σ} {below : List σ}
    (active : ∀ state action, machine.action state terminal = some action → state ∈ states)
    (piled : Piled machine terminal (top :: below)) : ∀ state ∈ below, state ∈ states := by
  intro state inBelow
  obtain ⟨between, rest, rfl⟩ := List.append_of_mem inBelow
  obtain ⟨_, reduces⟩ := piled.2 between state rest rfl
  cases reduces with
  | head step =>
      cases step with
      | intro inEffect => exact active _ _ inEffect

theorem Piled.mem_of_reduces
    (active : ∀ state action, machine.action state terminal = some action → state ∈ states)
    (piled : Piled machine terminal pile) (step : Reduces machine terminal (pile ++ base) next) :
    ∀ state ∈ pile, state ∈ states := by
  cases pile with
  | nil =>
      intro state impossible
      cases impossible
  | cons top below =>
      intro state member
      rcases List.mem_cons.mp member with rfl | inBelow
      · generalize whole : state :: below ++ base = stack at step
        cases step with
        | intro inEffect =>
            cases whole
            exact active _ _ inEffect
      · exact piled.mem_below active state inBelow

/-- A pile in which each state settles sooner than those below it, all from a set. -/
private def Ordered (machine : Machine σ τ ν ρ) (terminal : τ) (states : Finset σ)
    (pile : List σ) : Prop :=
  pile.Pairwise (Sooner machine terminal) ∧ ∀ state ∈ pile, state ∈ states

/-- Piles that a run has had above its floor, all different, with at least `steps` reductions more to
come at each. -/
private structure Visited (machine : Machine σ τ ν ρ) (terminal : τ) (states : Finset σ)
    (floor : σ) (base : List σ) (steps : Nat) (piles : List (List σ)) : Prop where
  distinct : piles.Nodup
  ordered : ∀ pile ∈ piles, Ordered machine terminal states pile
  earlier : ∀ pile ∈ piles, ∃ more > steps, ∃ last,
    Settles machine terminal more (pile ++ floor :: base) last

private theorem Visited.cons {piles : List (List σ)}
    (visited : Visited machine terminal states floor base (steps + 1) piles)
    (ordered : Ordered machine terminal states pile)
    (settles : Settles machine terminal (steps + 1) (pile ++ floor :: base) last) :
    Visited machine terminal states floor base steps (pile :: piles) := by
  constructor
  · refine List.nodup_cons.mpr ⟨?_, visited.distinct⟩
    intro member
    obtain ⟨more, later, last', settles'⟩ := visited.earlier pile member
    have same := settles'.unique settles
    omega
  · intro other member
    rcases List.mem_cons.mp member with rfl | before
    · exact ordered
    · exact visited.ordered other before
  · intro other member
    rcases List.mem_cons.mp member with rfl | before
    · exact ⟨steps + 1, Nat.lt_succ_self steps, last, settles⟩
    · obtain ⟨more, later, settles'⟩ := visited.earlier other before
      exact ⟨more, by omega, settles'⟩

variable [DecidableEq σ]

private theorem Ordered.length_le (ordered : Ordered machine terminal states pile) :
    pile.length ≤ states.card := by
  have distinct : pile.Nodup := by
    refine ordered.1.imp ?_
    rintro first second sooner rfl
    exact sooner.asymm sooner
  rw [← List.toFinset_card_of_nodup distinct]
  apply Finset.card_le_card
  intro state member
  exact ordered.2 state (List.mem_toFinset.mp member)

/-- Only the top of a pile can be a state that does not act. -/
private theorem Piled.length_le
    (active : ∀ state action, machine.action state terminal = some action → state ∈ states)
    (piled : Piled machine terminal pile)
    (settles : Settles machine terminal steps (pile ++ base) last) :
    pile.length ≤ states.card + 1 := by
  have sooner := piled.pairwise_sooner (piled.settles settles)
  cases pile with
  | nil => exact Nat.zero_le _
  | cons top below =>
      have ordered : Ordered machine terminal states below :=
        ⟨(List.pairwise_cons.mp sooner).2, piled.mem_below active⟩
      exact Nat.succ_le_succ ordered.length_le

private theorem Visited.length_le {piles : List (List σ)}
    (visited : Visited machine terminal states floor base steps piles) :
    piles.length ≤ 2 ^ states.card := by
  refine length_le_two_pow_card List.toFinset visited.distinct ?_ ?_
  · intro pile member state inPile
    exact (visited.ordered pile member).2 state (List.mem_toFinset.mp inPile)
  · intro first member second member' same
    refine eq_of_pairwise_of_mem_iff Sooner.asymm (visited.ordered first member).1
      (visited.ordered second member').1 ?_
    intro state
    rw [← List.mem_toFinset, same, List.mem_toFinset]

/-- The bound for stacks with a shorter base carries over, since no pile comes back above a floor. -/
private theorem Visited.bound
    (active : ∀ state action, machine.action state terminal = some action → state ∈ states)
    (shorter : ∀ {steps : Nat} {pile base' : List σ} {floor' : σ}, base'.length < base.length →
      Piled machine terminal pile →
      Settles machine terminal steps (pile ++ floor' :: base') last →
        steps + 2 ^ states.card * last.length ≤
          2 ^ states.card * (base'.length + states.card + 3))
    {piles : List (List σ)} (visited : Visited machine terminal states floor base steps piles)
    (piled : Piled machine terminal pile)
    (settles : Settles machine terminal steps (pile ++ floor :: base) last) :
    piles.length + steps + 2 ^ states.card * last.length ≤
      2 ^ states.card * (base.length + states.card + 3) := by
  induction steps generalizing pile piles with
  | zero =>
      have few := visited.length_le
      have low := piled.length_le active settles
      cases settles.1
      have short : (pile ++ floor :: base).length ≤ base.length + states.card + 2 := by
        rw [List.length_append, List.length_cons]
        omega
      have most := Nat.mul_le_mul_left (2 ^ states.card) short
      rw [Nat.mul_succ]
      omega
  | succ steps ih =>
      have sooner := piled.pairwise_sooner (piled.settles settles)
      obtain ⟨reduces, final⟩ := settles
      cases reduces with
      | @head _ next _ _ step others =>
          have visited' := visited.cons ⟨sooner, piled.mem_of_reduces active step⟩
            ⟨.head step others, final⟩
          rcases piled.step step with ⟨pile', rfl, piled'⟩ | ⟨top, floor', base', rfl, less⟩
          · have counted := ih visited' piled' ⟨others, final⟩
            rw [List.length_cons] at counted
            omega
          · have few := visited'.length_le
            have onward := shorter less (.single top) ⟨others, final⟩
            have most := Nat.mul_le_mul_left (2 ^ states.card)
              (show base'.length + states.card + 3 ≤ base.length + states.card + 2 by omega)
            rw [List.length_cons] at few
            rw [Nat.mul_succ]
            omega

theorem Settles.bound
    (active : ∀ state action, machine.action state terminal = some action → state ∈ states)
    (piled : Piled machine terminal pile)
    (settles : Settles machine terminal steps (pile ++ floor :: base) last) :
    steps + 2 ^ states.card * last.length ≤ 2 ^ states.card * (base.length + states.card + 3) := by
  generalize measure : base.length = length
  induction length using Nat.strong_induction_on generalizing steps pile floor base with
  | _ length ih =>
      subst measure
      have visited : Visited machine terminal states floor base steps [] := by
        constructor
        · exact .nil
        · intro pile impossible
          cases impossible
        · intro pile impossible
          cases impossible
      have counted := visited.bound active (fun less piled settles => ih _ less piled settles rfl)
        piled settles
      rwa [List.length_nil, Nat.zero_add] at counted

/-- A run that ends makes no more steps than this, given a set of all states that act. -/
theorem Ends.bound
    (active : ∀ state terminal action, machine.action state terminal = some action → state ∈ states)
    (ends : machine.Ends terminalOf steps first result) :
    steps ≤ 2 ^ states.card * (first.below.length + 1) +
      first.rest.length * (2 ^ states.card * (states.card + 3) + 1) := by
  generalize lookahead : first.rest = tokens
  induction tokens generalizing steps first with
  | nil =>
      have atOnce := (ends.unique (ends_of_nil lookahead)).1
      omega
  | cons token rest ih =>
      obtain ⟨count, others, last, rfl, lookahead', ends', settles⟩ := ends.exists_settles lookahead
      have counted := Settles.bound (fun state action => active state (terminalOf token) action)
        Piled.nil (show Settles machine _ _ ([] ++ first.state :: first.below) _ from settles)
      have onward : others ≤ 1 + (2 ^ states.card * (last.below.length + 2) +
          rest.length * (2 ^ states.card * (states.card + 3) + 1)) := by
        rcases ends'.eq_zero_or_shift lookahead' settles.2 with none | ⟨more, next, rfl, ends''⟩
        · omega
        · exact Nat.add_le_add_left (ih ends'' rfl) 1
      rw [List.length_cons] at counted ⊢
      have split : 2 ^ states.card * (first.below.length + states.card + 3) =
          2 ^ states.card * first.below.length + 2 ^ states.card * (states.card + 3) := by
        rw [← Nat.mul_add, Nat.add_assoc]
      rw [Nat.mul_succ] at counted ⊢
      rw [Nat.mul_succ, Nat.mul_succ] at onward
      rw [Nat.succ_mul]
      omega

end Counting

end Machine

namespace ParseTable

variable {θ : Type} {table : ParseTable} {terminalOf : θ → Terminal} {tokens : List θ}

theorem lt_size_of_action? {state : StateId} {terminal : Terminal} {action : TableAction}
    (inEffect : table.action? state terminal = some action) : state < table.actions.size := by
  by_contra outside
  rw [action?, actionCell, Array.getElem?_eq_none (Nat.le_of_not_lt outside)] at inEffect
  cases inEffect

private theorem reductions_lt_pow (size : Nat) :
    2 ^ size * (size + 3) + 1 ≤ Nat.pow (size + 2) (size + 4) := by
  have base : 2 ^ size ≤ (size + 2) ^ size := Nat.pow_le_pow_left (by omega) size
  have rest : size + 4 ≤ (size + 2) ^ 4 := by
    have cube : 8 ≤ (size + 2) ^ 3 := Nat.pow_le_pow_left (show 2 ≤ size + 2 by omega) 3
    calc size + 4 ≤ 8 * (size + 2) := by omega
      _ ≤ (size + 2) ^ 3 * (size + 2) := Nat.mul_le_mul_right _ cube
  calc 2 ^ size * (size + 3) + 1
      ≤ 2 ^ size * (size + 3) + 2 ^ size := Nat.add_le_add_left Nat.one_le_two_pow _
    _ = 2 ^ size * (size + 4) := (Nat.mul_succ _ _).symm
    _ ≤ (size + 2) ^ size * (size + 2) ^ 4 := Nat.mul_le_mul base rest
    _ = Nat.pow (size + 2) (size + 4) := (Nat.pow_add _ _ _).symm

theorem steps_lt_stepLimit {steps : Nat} {result : Except (ParseError StateId θ) (Derivation RuleId)}
    (ends : table.machine.Ends terminalOf steps (table.machine.start tokens) result) :
    steps < table.stepLimit tokens.length := by
  have active : ∀ state terminal action, table.machine.action state terminal = some action →
      state ∈ Finset.range table.actions.size :=
    fun state terminal action inEffect => Finset.mem_range.mpr (lt_size_of_action? inEffect)
  have bound := ends.bound active
  rw [Finset.card_range] at bound
  change steps ≤ 2 ^ table.actions.size * 1 + tokens.length * _ at bound
  have most := reductions_lt_pow table.actions.size
  have perToken := Nat.mul_le_mul_left tokens.length most
  have once : 2 ^ table.actions.size ≤ 2 ^ table.actions.size * (table.actions.size + 3) :=
    Nat.le_mul_of_pos_right _ (by omega)
  unfold stepLimit
  rw [Nat.succ_mul]
  omega

/-- A table gives the results of its runs: the step limit cuts none off. -/
theorem parse_eq_some_iff {result : Except (ParseError StateId θ) (Derivation RuleId)} :
    table.parse terminalOf tokens = some result ↔
      ∃ steps, table.machine.Ends terminalOf steps (table.machine.start tokens) result := by
  unfold parse Machine.run
  rw [Machine.runFrom_eq_some_iff]
  constructor
  · rintro ⟨steps, _, ends⟩
    exact ⟨steps, ends⟩
  · rintro ⟨steps, ends⟩
    exact ⟨steps, steps_lt_stepLimit ends, ends⟩

end ParseTable

end CoolLang
