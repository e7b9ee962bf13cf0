import CoolLang.Grammar.First

/-!
FOLLOW sets: the terminals that can stand right after a nonterminal, reached in rounds over all rules
from the end of input after the start symbol.
-/

namespace CoolLang

/-- The sets of one stage of the computation, by nonterminal. -/
structure FollowSets where
  sets : List TerminalSet
deriving DecidableEq

namespace FollowSets

variable {α : Type}

/-- The stage before the first round: only `$start` and the start symbol are followed by anything. -/
def initial (grammar : Grammar α) : FollowSets :=
  ⟨grammar.nonterminals.zipIdx.map fun (_, nonterminal) =>
    if nonterminal = Nonterminal.augmented ∨ nonterminal = grammar.start then
      .singleton Terminal.eoi
    else
      ∅⟩

def get? (follow : FollowSets) (nonterminal : Nonterminal) : Option TerminalSet :=
  follow.sets[nonterminal]?

def add (follow : FollowSets) (nonterminal : Nonterminal) (terminals : TerminalSet) : FollowSets :=
  ⟨follow.sets.modify nonterminal (· ∪ terminals)⟩

/-- Walks along the right-hand side of a rule for `left`. After each nonterminal can stand whatever
begins the rest, and whatever follows `left` where the rest derives the empty string. -/
def absorbRight (firsts : FirstSets) (left : Nonterminal) :
    List Symbol → FollowSets → FollowSets
  | [], follow => follow
  | .terminal _ :: rest, follow => absorbRight firsts left rest follow
  | .nonterminal nonterminal :: rest, follow =>
      let after := firsts.ofStringThen rest ((follow.get? left).getD ∅)
      absorbRight firsts left rest (follow.add nonterminal after)

/-- One round over all rules in order. -/
def propagate (grammar : Grammar α) (firsts : FirstSets) (follow : FollowSets) : FollowSets :=
  grammar.rules.foldl (fun current rule => absorbRight firsts rule.left rule.right current) follow

/-- As many rounds as there are pairs of a nonterminal and a terminal. -/
def roundLimit (grammar : Grammar α) : Nat :=
  grammar.nonterminals.length * grammar.terminals.length

def compute (grammar : Grammar α) (firsts : FirstSets) : FollowSets :=
  saturate (propagate grammar firsts) (roundLimit grammar) (initial grammar)

/-- Whether every set contains that of the same nonterminal in `inner`. -/
def isSuperset (outer inner : FollowSets) : Bool :=
  inner.sets.zipIdx.all fun (set, nonterminal) =>
    (outer.get? nonterminal).any (·.isSuperset set)

end FollowSets

end CoolLang
