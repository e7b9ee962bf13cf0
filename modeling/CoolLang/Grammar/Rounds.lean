import CoolLang.Grammar.Follow

/-!
Rounds that say whether they have added anything. A set grows by the members of another one, and it has
grown if it has more members afterwards or gets the mark of the empty string; a round reports growth if
any of its sets has grown. The loop that repeats a round for as long as it reports growth is `Repeats`;
`stage` and `reportsGrowth` are what rounds leave and report that go on regardless.
-/

namespace CoolLang

variable {α : Type}

namespace TerminalSet

def absorb (set other : TerminalSet) : TerminalSet × Bool :=
  (set ∪ other, (set ∪ other).size != set.size)

end TerminalSet

namespace FirstSet

def absorb (set other : FirstSet) : FirstSet × Bool :=
  let (terminals, grown) := set.terminals.absorb other.terminals
  if other.epsilon && !set.epsilon then (⟨terminals, true⟩, true)
  else (⟨terminals, set.epsilon⟩, grown)

end FirstSet

/-- Absorbs a set into the entry at a place, if there is one. -/
def absorbAt {β : Type} (absorb : β → β → β × Bool) (sets : List β) (place : Nat) (other : β) :
    List β × Bool :=
  match sets[place]? with
  | none => (sets, false)
  | some set =>
      let (larger, grown) := absorb set other
      (sets.set place larger, grown)

namespace FirstSets

def reportRule (current : FirstSets × Bool) (numbered : Rule α × RuleId) : FirstSets × Bool :=
  let (sets, grown) := current
  let first := sets.ofString numbered.1.right
  let (rules, ruleGrown) := absorbAt FirstSet.absorb sets.rules numbered.2 first
  let (nonterminals, leftGrown) := absorbAt FirstSet.absorb sets.nonterminals numbered.1.left first
  ({ sets with rules := rules, nonterminals := nonterminals }, grown || ruleGrown || leftGrown)

def reportRound (grammar : Grammar α) (sets : FirstSets) : FirstSets × Bool :=
  grammar.numberedRules.foldl reportRule (sets, false)

end FirstSets

namespace FollowSets

def reportRight (firsts : FirstSets) (left : Nonterminal) :
    List Symbol → FollowSets × Bool → FollowSets × Bool
  | [], current => current
  | .terminal _ :: rest, current => reportRight firsts left rest current
  | .nonterminal nonterminal :: rest, (follow, grown) =>
      let after := firsts.ofStringThen rest ((follow.get? left).getD ∅)
      let (sets, nonterminalGrown) := absorbAt TerminalSet.absorb follow.sets nonterminal after
      reportRight firsts left rest (⟨sets⟩, grown || nonterminalGrown)

def reportRound (grammar : Grammar α) (firsts : FirstSets) (follow : FollowSets) :
    FollowSets × Bool :=
  grammar.rules.foldl (fun current rule => reportRight firsts rule.left rule.right current)
    (follow, false)

end FollowSets

/-- What some rounds leave, those that report no growth included. -/
def stage {β : Type} (round : β → β × Bool) (first : β) : Nat → β
  | 0 => first
  | rounds + 1 => (round (stage round first rounds)).1

/-- Whether the round that comes after so many others reports growth. -/
def reportsGrowth {β : Type} (round : β → β × Bool) (first : β) (rounds : Nat) : Bool :=
  (round (stage round first rounds)).2

/-- `Repeats round rounds first last`: the loop that starts at `first` and goes on while a round reports
growth leaves `last`, after as many rounds with growth and one without. -/
inductive Repeats {β : Type} (round : β → β × Bool) : Nat → β → β → Prop where
  | stop {first last : β} (still : round first = (last, false)) : Repeats round 0 first last
  | again {rounds : Nat} {first next last : β} (grown : round first = (next, true))
      (others : Repeats round rounds next last) : Repeats round (rounds + 1) first last

end CoolLang
