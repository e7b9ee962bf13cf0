import CoolLang.Automaton.Basic
import CoolLang.Grammar.Rounds
import CoolLang.Keyed

/-!
The search for states, step by step. A round of closing collects what the items of a set predict and unites it with
them, and it says whether that has changed anything (`ItemSet.closeRound`). The search keeps the numbers of the kernels
that it knows and a queue of those that are to be completed (`Search`). It takes the first of the queue, closes it,
numbers the kernels that come after it and puts new ones at the end of the queue; it ends when the queue is empty
(`Search.Ends`).
-/

namespace CoolLang

variable {α : Type}

/-! ### Closing -/

/-- By rule, then by marker. -/
def Item.isBefore (first second : Item) : Bool :=
  first.rule < second.rule || first.rule == second.rule && first.marker < second.marker

namespace ItemSet

/-- Unites lookaheads with those of an item, which gets its place in the order if it is new. The flag says whether
anything has changed. -/
def absorb (item : Item) (lookaheads : TerminalSet) : ItemSet → ItemSet × Bool
  | [] => ([(item, ∅ ∪ lookaheads)], true)
  | entry :: items =>
      if entry.1 = item then
        let (larger, grown) := entry.2.absorb lookaheads
        ((item, larger) :: items, grown)
      else if item.isBefore entry.1 then
        ((item, ∅ ∪ lookaheads) :: entry :: items, true)
      else
        let (items, grown) := absorb item lookaheads items
        (entry :: items, grown)

/-- What the nonterminal after the marker of an item predicts, besides what is predicted already. -/
def predictAfter (grammar : Grammar α) (firsts : FirstSets) (predicted : Keyed Item TerminalSet)
    (entry : Item × TerminalSet) : Keyed Item TerminalSet :=
  match (grammar.right entry.1.rule).drop entry.1.marker with
  | .nonterminal nonterminal :: rest =>
      (grammar.rulesOf nonterminal).foldl
        (fun predicted numbered =>
          predicted.update ⟨numbered.2, 0⟩ ∅ (· ∪ firsts.ofStringThen rest entry.2))
        predicted
  | _ => predicted

def predicted (grammar : Grammar α) (firsts : FirstSets) (items : ItemSet) : Keyed Item TerminalSet :=
  items.foldl (predictAfter grammar firsts) []

def reportAbsorb (current : ItemSet × Bool) (entry : Item × TerminalSet) : ItemSet × Bool :=
  let (items, grown) := current.1.absorb entry.1 entry.2
  (items, current.2 || grown)

def closeRound (grammar : Grammar α) (firsts : FirstSets) (items : ItemSet) : ItemSet × Bool :=
  (items.predicted grammar firsts).foldl reportAbsorb (items, false)

/-- The kernels that come after a set of items, by the symbol that leads there. -/
def successors (grammar : Grammar α) (items : ItemSet) : Keyed Symbol ItemSet :=
  items.foldl
    (fun kernels entry =>
      match entry.1.next? grammar with
      | none => kernels
      | some symbol => kernels.update symbol [] fun kernel => (kernel.absorb entry.1.advance entry.2).1)
    []

end ItemSet

/-! ### Searching -/

/-- The items of a state and the successors of the state. -/
abbrev StateContent := ItemSet × Keyed Symbol StateId

structure Search where
  numbers : Keyed ItemSet StateId
  pending : List (StateId × ItemSet)
  states : Keyed StateId StateContent

namespace Search

def initial : Search where
  numbers := [(Exploration.initialKernel, 0)]
  pending := [(0, Exploration.initialKernel)]
  states := []

/-- The number of a kernel. A new one is numbered and has to wait. -/
def numberOf (search : Search) (kernel : ItemSet) : StateId × Search :=
  match search.numbers.find? fun entry => entry.1 == kernel with
  | some entry => (entry.2, search)
  | none =>
      (search.numbers.length,
        { search with
          numbers := search.numbers.insert kernel search.numbers.length
          pending := search.pending ++ [(search.numbers.length, kernel)] })

def connectOne (current : Keyed Symbol StateId × Search) (successor : Symbol × ItemSet) :
    Keyed Symbol StateId × Search :=
  let (next, search) := current.2.numberOf successor.2
  (current.1.insert successor.1 next, search)

/-- Completes a state whose items are closed. -/
def complete (grammar : Grammar α) (number : StateId) (items : ItemSet) (search : Search) : Search :=
  let (transitions, search) := (items.successors grammar).foldl connectOne ([], search)
  { search with states := search.states.insert number (items, transitions) }

/-- `Ends grammar firsts steps first last`: the loop that starts at `first` leaves `last`, after as many steps. -/
inductive Ends (grammar : Grammar α) (firsts : FirstSets) : Nat → Search → Search → Prop where
  | stop {search : Search} (isDone : search.pending = []) : Ends grammar firsts 0 search search
  | next {search last : Search} {number : StateId} {kernel items : ItemSet} {pending : List (StateId × ItemSet)}
      {rounds steps : Nat} (isNext : search.pending = (number, kernel) :: pending)
      (closes : Repeats (ItemSet.closeRound grammar firsts) rounds kernel items)
      (others : Ends grammar firsts steps ({ search with pending }.complete grammar number items) last) :
      Ends grammar firsts (steps + 1) search last

/-- The states of a search, in the order of their numbers. -/
def result (search : Search) : Keyed StateId StateContent :=
  search.states.mergeSort fun first second => first.1 ≤ second.1

end Search

end CoolLang
