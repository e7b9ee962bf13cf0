import CoolLang.Program.Basic

/-!
Actions on a state, step by step. A relation that tells what steps do to a state, and that composes as
lists of steps do, tells what an action does if it tells so of the parts that the action is made of
(`Yields.bind`). The same holds of a condition on the steps that are still to be made
(`Consumes.bind`), and of what an action comes to when it is started in a state that has been changed
(`Commutes.bind`). Where an action can be refused as well, the actions after it are made only if it is not
(`Refusable.run_bind`).
-/

namespace CoolLang

/-- A relation between states, by the steps in between, that composes. -/
class Composes {σ ι : Type} (relation : List ι → σ → σ → Prop) : Prop where
  refl : ∀ state, relation [] state state
  trans : ∀ {first second : List ι} {before between after : σ}, relation first before between →
    relation second between after → relation (first ++ second) before after

/-- From every state, an action makes these steps and returns a value with a property. -/
def Yields {σ ι α : Type} (relation : List ι → σ → σ → Prop) (steps : List ι) (property : α → Prop)
    (action : StateM σ α) : Prop :=
  ∀ state, relation steps state (action state).2 ∧ property (action state).1

namespace Yields

variable {σ ι α β : Type} {relation : List ι → σ → σ → Prop} {first second : List ι}
  {property : α → Prop} {result : β → Prop} {action : StateM σ α} {next : α → StateM σ β}

theorem pure [Composes relation] {value : α} (holds : property value) :
    Yields relation [] property (Pure.pure value) :=
  fun state => ⟨Composes.refl state, holds⟩

theorem skip [Composes relation] {value : α} :
    Yields relation [] (fun _ => True) (Pure.pure value) :=
  .pure trivial

theorem bind [Composes relation] (one : Yields relation first property action)
    (two : ∀ value, property value → Yields relation second result (next value)) :
    Yields relation (first ++ second) result (action >>= next) := fun state =>
  have before := one state
  have after := two (action state).1 before.2 (action state).2
  ⟨Composes.trans before.1 after.1, after.2⟩

/-- The second action makes no step of its own. -/
theorem bindSilent [Composes relation] (one : Yields relation first property action)
    (two : ∀ value, property value → Yields relation [] result (next value)) :
    Yields relation first result (action >>= next) := by
  have both := one.bind two
  rwa [List.append_nil] at both

/-- Reading the state makes no step. -/
theorem get [Composes relation] : Yields relation [] (fun _ => True) (MonadState.get : StateM σ σ) :=
  fun state => ⟨Composes.refl state, trivial⟩

end Yields

/-- From a state that is ready for these steps and for others after them, an action leads to one that is
ready for the others, and returns a value with a property. -/
def Consumes {σ ι α : Type} (ready : List ι → σ → Prop) (steps : List ι) (property : α → Prop)
    (action : StateM σ α) : Prop :=
  ∀ rest state, ready (steps ++ rest) state → ready rest (action state).2 ∧ property (action state).1

namespace Consumes

variable {σ ι α β : Type} {ready : List ι → σ → Prop} {first second : List ι}
  {property : α → Prop} {result : β → Prop} {action : StateM σ α} {next : α → StateM σ β}

theorem pure {value : α} (holds : property value) :
    Consumes ready [] property (Pure.pure value) :=
  fun _ _ isReady => ⟨isReady, holds⟩

theorem bind (one : Consumes ready first property action)
    (two : ∀ value, property value → Consumes ready second result (next value)) :
    Consumes ready (first ++ second) result (action >>= next) := fun rest state isReady =>
  have before := one (second ++ rest) state (List.append_assoc first second rest ▸ isReady)
  two (action state).1 before.2 rest (action state).2 before.1

/-- The second action makes no step of its own. -/
theorem bindSilent (one : Consumes ready first property action)
    (two : ∀ value, property value → Consumes ready [] result (next value)) :
    Consumes ready first result (action >>= next) := by
  have both := one.bind two
  rwa [List.append_nil] at both

theorem get {known : σ → Prop} (holds : ∀ rest state, ready rest state → known state) :
    Consumes ready [] known (MonadState.get : StateM σ σ) :=
  fun rest state isReady => ⟨isReady, holds rest state isReady⟩

end Consumes

/-- Started in a changed state, the second action leaves and returns what the first one does, changed. -/
def Commutes {σ α β : Type} (onState : σ → σ) (onValue : α → β) (action : StateM σ α) (action' : StateM σ β) :
    Prop :=
  ∀ state, action' (onState state) = (onValue (action state).1, onState (action state).2)

namespace Commutes

variable {σ α β γ δ : Type} {onState : σ → σ} {onValue : α → β} {onResult : γ → δ}
  {action : StateM σ α} {action' : StateM σ β} {next : α → StateM σ γ} {next' : β → StateM σ δ}

theorem pure {value : α} {value' : β} (same : value' = onValue value) :
    Commutes onState onValue (Pure.pure value) (Pure.pure value') :=
  fun state => congrArg (·, onState state) same

theorem bind (one : Commutes onState onValue action action')
    (two : ∀ value, Commutes onState onResult (next value) (next' (onValue value))) :
    Commutes onState onResult (action >>= next) (action' >>= next') := fun state => by
  change next' (action' (onState state)).1 (action' (onState state)).2 = _
  rw [one]
  exact two (action state).1 (action state).2

theorem get : Commutes onState onState (MonadState.get : StateM σ σ) MonadState.get :=
  fun _ => rfl

theorem modify {change change' : σ → σ} (same : ∀ state, change' (onState state) = onState (change state)) :
    Commutes onState id (modify change) (modify change') :=
  fun state => congrArg ((), ·) (same state)

end Commutes

/-- Actions on a state that can be refused. The changes that were made before stay. -/
abbrev Refusable (σ ε α : Type) := ExceptT ε (StateM σ) α

namespace Refusable

variable {σ ε α β : Type}

theorem run_bind (first : Refusable σ ε α) (next : α → Refusable σ ε β) (state : σ) :
    (first >>= next).run.run state =
      match first.run.run state with
      | (.ok value, after) => (next value).run.run after
      | (.error error, after) => (.error error, after) := by
  rw [ExceptT.run_bind, StateT.run_bind]
  generalize first.run.run state = result
  obtain ⟨_ | _, _⟩ := result
  · rfl
  · rfl

theorem run_get_bind (next : σ → Refusable σ ε β) (state : σ) :
    (get >>= next).run.run state = (next state).run.run state :=
  rfl

end Refusable

end CoolLang
