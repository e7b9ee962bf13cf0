import CoolLang.ShiftReduce.Machine

/-!
Runs of shift-reduce machines, whatever their tables. `Machine.Reaches` counts the steps between two
configurations, and a run gives a result exactly when it reaches a configuration that stops
(`Machine.runFrom_eq_some_iff`). What a run does depends on the terminals it has looked at only
(`Machine.Reaches.retoken`).
-/

namespace CoolLang

/-- The result of a run that stops with this step. -/
def StepResult.outcome? {σ θ ρ : Type} :
    StepResult σ θ ρ → Option (Except (ParseError σ θ) (Derivation ρ))
  | .next _ => none
  | .accepted derivation => some (.ok derivation)
  | .failed error => some (.error error)

/-- The same configuration before other tokens. -/
def Configuration.withRest {σ θ θ' ρ : Type} (configuration : Configuration σ θ ρ)
    (rest : List θ') : Configuration σ θ' ρ :=
  ⟨configuration.state, configuration.below, rest, configuration.position,
    configuration.reductions, configuration.operations⟩

namespace Machine

variable {σ τ ν ρ θ : Type} {machine : Machine σ τ ν ρ} {terminalOf : θ → τ}
  {first second last : Configuration σ θ ρ} {steps more : Nat}

/-! ### Single steps -/

theorem step_of_shift {token : θ} {rest : List θ} {next : σ} (lookahead : first.rest = token :: rest)
    (inEffect : machine.action first.state (terminalOf token) = some (.shift next)) :
    machine.step terminalOf first = .next (first.shift rest next) := by
  simp only [step, lookahead, inEffect]

theorem step_of_reduce {token : θ} {rest : List θ} {rule : ρ} {left : ν} {count : Nat} {top next : σ}
    {below : List σ} (lookahead : first.rest = token :: rest)
    (inEffect : machine.action first.state (terminalOf token) = some (.reduce rule))
    (production : machine.production rule = (left, count))
    (uncovered : (first.state :: first.below).drop count = top :: below)
    (goto : machine.goto top left = some next) :
    machine.step terminalOf first = .next (first.reduce rule top below next) := by
  simp only [step, lookahead, inEffect, production, uncovered, goto]

theorem step_of_accept {token : θ} {rest : List θ} (lookahead : first.rest = token :: rest)
    (inEffect : machine.action first.state (terminalOf token) = some .accept) :
    machine.step terminalOf first = .accepted first.derivation := by
  simp only [step, lookahead, inEffect]

theorem step_of_none {token : θ} {rest : List θ} (lookahead : first.rest = token :: rest)
    (inEffect : machine.action first.state (terminalOf token) = none) :
    machine.step terminalOf first =
      .failed (.unexpectedToken token first.position first.state) := by
  simp only [step, lookahead, inEffect]

/-- Everything that a step can do. -/
inductive Stepped (machine : Machine σ τ ν ρ) (terminalOf : θ → τ)
    (configuration : Configuration σ θ ρ) : StepResult σ θ ρ → Prop where
  | shift {token : θ} {rest : List θ} {next : σ} (lookahead : configuration.rest = token :: rest)
      (inEffect : machine.action configuration.state (terminalOf token) = some (.shift next)) :
      Stepped machine terminalOf configuration (.next (configuration.shift rest next))
  | reduce {token : θ} {rest : List θ} {rule : ρ} {left : ν} {count : Nat} {top next : σ}
      {below : List σ} (lookahead : configuration.rest = token :: rest)
      (inEffect : machine.action configuration.state (terminalOf token) = some (.reduce rule))
      (production : machine.production rule = (left, count))
      (uncovered : (configuration.state :: configuration.below).drop count = top :: below)
      (goto : machine.goto top left = some next) :
      Stepped machine terminalOf configuration (.next (configuration.reduce rule top below next))
  | accept {token : θ} {rest : List θ} (lookahead : configuration.rest = token :: rest)
      (inEffect : machine.action configuration.state (terminalOf token) = some .accept) :
      Stepped machine terminalOf configuration (.accepted configuration.derivation)
  | unexpectedEnd (atEnd : configuration.rest = []) :
      Stepped machine terminalOf configuration (.failed .unexpectedEnd)
  | unexpectedToken {token : θ} {rest : List θ} (lookahead : configuration.rest = token :: rest)
      (inEffect : machine.action configuration.state (terminalOf token) = none) :
      Stepped machine terminalOf configuration
        (.failed (.unexpectedToken token configuration.position configuration.state))
  | emptyStack {token : θ} {rest : List θ} {rule : ρ} {left : ν} {count : Nat}
      (lookahead : configuration.rest = token :: rest)
      (inEffect : machine.action configuration.state (terminalOf token) = some (.reduce rule))
      (production : machine.production rule = (left, count))
      (uncovered : (configuration.state :: configuration.below).drop count = []) :
      Stepped machine terminalOf configuration (.failed .emptyStack)
  | missingGoto {token : θ} {rest : List θ} {rule : ρ} {left : ν} {count : Nat} {top : σ}
      {below : List σ} (lookahead : configuration.rest = token :: rest)
      (inEffect : machine.action configuration.state (terminalOf token) = some (.reduce rule))
      (production : machine.production rule = (left, count))
      (uncovered : (configuration.state :: configuration.below).drop count = top :: below)
      (goto : machine.goto top left = none) :
      Stepped machine terminalOf configuration (.failed (.missingGoto top))

theorem step_stepped (machine : Machine σ τ ν ρ) (terminalOf : θ → τ)
    (configuration : Configuration σ θ ρ) :
    Stepped machine terminalOf configuration (machine.step terminalOf configuration) := by
  cases lookahead : configuration.rest with
  | nil =>
      simp only [step, lookahead]
      exact .unexpectedEnd lookahead
  | cons token rest =>
      cases inEffect : machine.action configuration.state (terminalOf token) with
      | none =>
          rw [step_of_none lookahead inEffect]
          exact .unexpectedToken lookahead inEffect
      | some action =>
          cases action with
          | accept =>
              rw [step_of_accept lookahead inEffect]
              exact .accept lookahead inEffect
          | shift next =>
              rw [step_of_shift lookahead inEffect]
              exact .shift lookahead inEffect
          | reduce rule =>
              cases uncovered :
                  (configuration.state :: configuration.below).drop (machine.production rule).2 with
              | nil =>
                  simp only [step, lookahead, inEffect, uncovered]
                  exact .emptyStack lookahead inEffect rfl uncovered
              | cons top below =>
                  cases goto : machine.goto top (machine.production rule).1 with
                  | none =>
                      simp only [step, lookahead, inEffect, uncovered, goto]
                      exact .missingGoto lookahead inEffect rfl uncovered goto
                  | some next =>
                      rw [step_of_reduce lookahead inEffect rfl uncovered goto]
                      exact .reduce lookahead inEffect rfl uncovered goto

/-! ### Several steps -/

/-- `Reaches machine terminalOf steps first last`: that many steps lead from `first` to `last`. -/
inductive Reaches (machine : Machine σ τ ν ρ) (terminalOf : θ → τ) :
    Nat → Configuration σ θ ρ → Configuration σ θ ρ → Prop where
  | refl (configuration : Configuration σ θ ρ) :
      Reaches machine terminalOf 0 configuration configuration
  | head {first second last : Configuration σ θ ρ} {steps : Nat}
      (step : machine.step terminalOf first = .next second)
      (others : Reaches machine terminalOf steps second last) :
      Reaches machine terminalOf (steps + 1) first last

/-- A run that stops with a result after a number of steps. -/
def Ends (machine : Machine σ τ ν ρ) (terminalOf : θ → τ) (steps : Nat)
    (first : Configuration σ θ ρ) (result : Except (ParseError σ θ) (Derivation ρ)) : Prop :=
  ∃ last, Reaches machine terminalOf steps first last ∧
    (machine.step terminalOf last).outcome? = some result

theorem Reaches.single (step : machine.step terminalOf first = .next second) :
    Reaches machine terminalOf 1 first second :=
  .head step (.refl second)

theorem Reaches.trans (front : Reaches machine terminalOf steps first second)
    (back : Reaches machine terminalOf more second last) :
    Reaches machine terminalOf (steps + more) first last := by
  induction front with
  | refl => rwa [Nat.zero_add]
  | head step _ ih =>
      rw [Nat.add_right_comm]
      exact .head step (ih back)

theorem Reaches.ends {result : Except (ParseError σ θ) (Derivation ρ)}
    (front : Reaches machine terminalOf steps first second)
    (back : Ends machine terminalOf more second result) :
    Ends machine terminalOf (steps + more) first result := by
  obtain ⟨last, reaches, stops⟩ := back
  exact ⟨last, front.trans reaches, stops⟩

theorem ends_of_accept {token : θ} {rest : List θ} (lookahead : first.rest = token :: rest)
    (inEffect : machine.action first.state (terminalOf token) = some .accept) :
    Ends machine terminalOf 0 first (.ok first.derivation) :=
  ⟨first, .refl first, by rw [step_of_accept lookahead inEffect]; rfl⟩

theorem ends_of_none {token : θ} {rest : List θ} (lookahead : first.rest = token :: rest)
    (inEffect : machine.action first.state (terminalOf token) = none) :
    Ends machine terminalOf 0 first
      (.error (.unexpectedToken token first.position first.state)) :=
  ⟨first, .refl first, by rw [step_of_none lookahead inEffect]; rfl⟩

theorem ends_of_nil (atEnd : first.rest = []) :
    Ends machine terminalOf 0 first (.error .unexpectedEnd) :=
  ⟨first, .refl first, by simp only [step, atEnd]; rfl⟩

/-- The last step of a run. -/
theorem Reaches.eq_or_last (reaches : Reaches machine terminalOf steps first last) :
    first = last ∨ ∃ fewer before, Reaches machine terminalOf fewer first before ∧
      machine.step terminalOf before = .next last := by
  induction reaches with
  | refl => exact Or.inl rfl
  | @head first second last steps step others ih =>
      rcases ih with rfl | ⟨fewer, before, reaches, final⟩
      · exact Or.inr ⟨0, first, .refl first, step⟩
      · exact Or.inr ⟨fewer + 1, before, .head step reaches, final⟩

theorem Ends.failed {error : ParseError σ θ}
    (ends : Ends machine terminalOf steps first (.error error)) :
    ∃ last, Reaches machine terminalOf steps first last ∧
      machine.step terminalOf last = .failed error := by
  obtain ⟨last, reaches, stops⟩ := ends
  refine ⟨last, reaches, ?_⟩
  cases step : machine.step terminalOf last with
  | next => rw [step] at stops; cases stops
  | accepted => rw [step] at stops; cases stops
  | failed other =>
      rw [step] at stops
      cases stops
      rfl

theorem Ends.accepted {derivation : Derivation ρ}
    (ends : Ends machine terminalOf steps first (.ok derivation)) :
    ∃ last, Reaches machine terminalOf steps first last ∧
      machine.step terminalOf last = .accepted derivation := by
  obtain ⟨last, reaches, stops⟩ := ends
  refine ⟨last, reaches, ?_⟩
  cases step : machine.step terminalOf last with
  | next => rw [step] at stops; cases stops
  | failed => rw [step] at stops; cases stops
  | accepted other =>
      rw [step] at stops
      cases stops
      rfl

/-- A run that ends before a token has no action for it. -/
theorem Ends.unexpectedToken {token : θ} {position : Nat} {state : σ}
    (ends : Ends machine terminalOf steps first (.error (.unexpectedToken token position state))) :
    ∃ last rest, Reaches machine terminalOf steps first last ∧ last.rest = token :: rest ∧
      last.position = position ∧ last.state = state ∧
        machine.action last.state (terminalOf token) = none := by
  obtain ⟨last, reaches, step⟩ := ends.failed
  have stepped := step_stepped machine terminalOf last
  rw [step] at stepped
  cases stepped with
  | unexpectedToken lookahead inEffect =>
      exact ⟨last, _, reaches, lookahead, rfl, rfl, inEffect⟩

theorem Ends.unexpectedEnd (ends : Ends machine terminalOf steps first (.error .unexpectedEnd)) :
    ∃ last, Reaches machine terminalOf steps first last ∧ last.rest = [] := by
  obtain ⟨last, reaches, step⟩ := ends.failed
  have stepped := step_stepped machine terminalOf last
  rw [step] at stepped
  cases stepped with
  | unexpectedEnd atEnd => exact ⟨last, reaches, atEnd⟩

/-- What a run has passed ends as the run does. -/
theorem Ends.after {result : Except (ParseError σ θ) (Derivation ρ)}
    (ends : Ends machine terminalOf more first result)
    (front : Reaches machine terminalOf steps first second) :
    ∃ others, more = steps + others ∧ Ends machine terminalOf others second result := by
  induction front generalizing more with
  | refl => exact ⟨more, (Nat.zero_add _).symm, ends⟩
  | @head first next second steps step _ ih =>
      obtain ⟨last, reaches, stops⟩ := ends
      cases reaches with
      | refl =>
          rw [step] at stops
          cases stops
      | @head _ next' _ others step' reaches =>
          rw [step] at step'
          cases step'
          obtain ⟨rest, rfl, ends⟩ := ih ⟨last, reaches, stops⟩
          exact ⟨rest, Nat.add_right_comm _ _ _, ends⟩

/-- A run that stops at once ends in no other way. -/
theorem Ends.eq_of_stops {result other : Except (ParseError σ θ) (Derivation ρ)}
    (ends : Ends machine terminalOf steps first result)
    (stops : (machine.step terminalOf first).outcome? = some other) : steps = 0 ∧ result = other := by
  obtain ⟨last, reaches, stops'⟩ := ends
  cases reaches with
  | refl =>
      rw [stops] at stops'
      exact ⟨rfl, (Option.some.inj stops').symm⟩
  | head step =>
      rw [step] at stops
      cases stops

/-- Every run ends in one way only. -/
theorem Ends.unique {result other : Except (ParseError σ θ) (Derivation ρ)}
    (ends : Ends machine terminalOf steps first result)
    (ends' : Ends machine terminalOf more first other) : steps = more ∧ result = other := by
  obtain ⟨last, reaches, stops⟩ := ends
  obtain ⟨others, rfl, remains⟩ := ends'.after reaches
  obtain ⟨rfl, rfl⟩ := remains.eq_of_stops stops
  exact ⟨rfl, rfl⟩

theorem runFrom_eq_some_iff {fuel : Nat} {result : Except (ParseError σ θ) (Derivation ρ)} :
    machine.runFrom terminalOf fuel first = some result ↔
      ∃ steps < fuel, Ends machine terminalOf steps first result := by
  induction fuel generalizing first with
  | zero =>
      constructor
      · intro impossible
        cases impossible
      · rintro ⟨_, impossible, _⟩
        exact absurd impossible (Nat.not_lt_zero _)
  | succ fuel ih =>
      have stopped {other : Except (ParseError σ θ) (Derivation ρ)}
          (stops : (machine.step terminalOf first).outcome? = some other) :
          some other = some result ↔ ∃ steps < fuel + 1, Ends machine terminalOf steps first result := by
        rw [Option.some.injEq]
        constructor
        · rintro rfl
          exact ⟨0, Nat.succ_pos _, first, .refl first, stops⟩
        · rintro ⟨steps, _, ends⟩
          exact (ends.eq_of_stops stops).2.symm
      unfold runFrom
      cases step : machine.step terminalOf first with
      | next second =>
          dsimp only
          rw [ih]
          constructor
          · rintro ⟨steps, inFuel, ends⟩
            refine ⟨1 + steps, by omega, ?_⟩
            exact (Reaches.single step).ends ends
          · rintro ⟨steps, inFuel, ends⟩
            obtain ⟨others, rfl, remains⟩ := ends.after (Reaches.single step)
            exact ⟨others, by omega, remains⟩
      | accepted derivation => exact stopped (by rw [step]; rfl)
      | failed error => exact stopped (by rw [step]; rfl)

/-! ### Tokens that are looked at -/

/-- A run reads tokens in order, and its position counts them. -/
theorem Reaches.read (reaches : Reaches machine terminalOf steps first last) :
    ∃ read, first.rest = read ++ last.rest ∧ last.position = first.position + read.length := by
  induction reaches with
  | refl => exact ⟨[], rfl, rfl⟩
  | @head first second last steps step _ ih =>
      obtain ⟨read, same, position⟩ := ih
      have stepped := step_stepped machine terminalOf first
      rw [step] at stepped
      cases stepped with
      | @shift token rest next lookahead _ =>
          refine ⟨token :: read, ?_, ?_⟩
          · rw [lookahead, List.cons_append, ← same]
            rfl
          · rw [position, List.length_cons]
            exact Nat.add_right_comm _ _ _
      | reduce => exact ⟨read, same, position⟩

theorem Reaches.read_from_start {tokens : List θ}
    (reaches : Reaches machine terminalOf steps (machine.start tokens) last) :
    ∃ read, tokens = read ++ last.rest ∧ last.position = read.length := by
  obtain ⟨read, whole, position⟩ := reaches.read
  exact ⟨read, whole, position.trans (Nat.zero_add _)⟩

/-- Other tokens for the same terminals, up to the last lookahead, make no difference. -/
theorem Reaches.retoken {θ' : Type} (terminalOf' : θ' → τ) {read : List θ} {token : θ}
    {rest : List θ} {read' : List θ'} {token' : θ'} (rest' : List θ')
    (reaches : Reaches machine terminalOf steps first last) (before : first.rest = read ++ token :: rest)
    (after : last.rest = token :: rest) (sameRead : read'.map terminalOf' = read.map terminalOf)
    (sameToken : terminalOf' token' = terminalOf token) :
    Reaches machine terminalOf' steps (first.withRest (read' ++ token' :: rest'))
      (last.withRest (token' :: rest')) := by
  induction reaches generalizing read read' with
  | refl configuration =>
      rw [after] at before
      have none : read = [] := List.self_eq_append_left.mp before
      rw [none, List.map_nil, List.map_eq_nil_iff] at sameRead
      rw [sameRead]
      exact .refl _
  | @head first second last steps step others ih =>
      have stepped := step_stepped machine terminalOf first
      rw [step] at stepped
      cases stepped with
      | @shift front behind next lookahead inEffect =>
          -- the shifted token is the first of those read
          obtain ⟨readOn, same, _⟩ := others.read
          change behind = readOn ++ last.rest at same
          rw [after] at same
          rw [lookahead, same, ← List.cons_append] at before
          have whole := List.append_cancel_right before
          subst whole
          rw [List.map_cons, List.map_eq_cons_iff] at sameRead
          obtain ⟨front', readOn', rfl, sameFront, sameRead⟩ := sameRead
          rw [← sameFront] at inEffect
          exact .head (step_of_shift rfl inEffect) (ih same after sameRead)
      | @reduce front behind rule left count top next below lookahead inEffect production uncovered
          goto =>
          refine .head ?_ (ih before after sameRead)
          obtain ⟨front', behind', sameRest, sameFront⟩ : ∃ front' behind',
              read' ++ token' :: rest' = front' :: behind' ∧ terminalOf' front' = terminalOf front := by
            rw [before] at lookahead
            cases read with
            | nil =>
                cases lookahead
                rw [List.map_nil, List.map_eq_nil_iff] at sameRead
                subst sameRead
                exact ⟨token', rest', rfl, sameToken⟩
            | cons =>
                cases lookahead
                rw [List.map_cons, List.map_eq_cons_iff] at sameRead
                obtain ⟨front', readOn', rfl, sameFront, _⟩ := sameRead
                exact ⟨front', readOn' ++ token' :: rest', rfl, sameFront⟩
          rw [← sameFront] at inEffect
          exact step_of_reduce sameRest inEffect production uncovered goto

end Machine

end CoolLang
