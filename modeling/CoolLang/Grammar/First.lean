import CoolLang.Grammar.Basic
import CoolLang.Grammar.Saturation

/-!
FIRST sets: the terminals that can begin what a string of symbols derives, and whether it derives the
empty string. They are the least solution of one equation for each rule, reached in rounds over all
rules from `FIRST(t) = {t}` and nothing else.
-/

namespace CoolLang

/-- The FIRST set of a symbol or of a string of symbols. -/
structure FirstSet where
  terminals : TerminalSet
  /-- Whether the empty string can be derived. -/
  epsilon : Bool
deriving DecidableEq, Inhabited

namespace FirstSet

def empty : FirstSet := ⟨∅, false⟩

instance : EmptyCollection FirstSet := ⟨empty⟩

def union (left right : FirstSet) : FirstSet :=
  ⟨left.terminals ∪ right.terminals, left.epsilon || right.epsilon⟩

instance : Union FirstSet := ⟨union⟩

def isSuperset (outer inner : FirstSet) : Bool :=
  outer.terminals.isSuperset inner.terminals && (outer.epsilon || !inner.epsilon)

end FirstSet

/-- The sets of one stage of the computation. -/
structure FirstSets where
  /-- How many terminals are declared; the set of each of them holds just itself. -/
  terminalCount : Nat
  /-- The sets of the nonterminals, by number. -/
  nonterminals : List FirstSet
  /-- What each rule has contributed so far: the sets of the right-hand sides, by rule. -/
  rules : List FirstSet
deriving DecidableEq

namespace FirstSets

variable {α : Type}

/-- The stage before the first round. -/
def initial (grammar : Grammar α) : FirstSets where
  terminalCount := grammar.terminals.length
  nonterminals := grammar.nonterminals.map fun _ => ∅
  rules := grammar.rules.map fun _ => ∅

/-- The set of a declared symbol. -/
def ofSymbol? (sets : FirstSets) : Symbol → Option FirstSet
  | .terminal terminal =>
      if terminal < sets.terminalCount then some ⟨.singleton terminal, false⟩ else none
  | .nonterminal nonterminal => sets.nonterminals[nonterminal]?

/-- The set of a string: the sets of its symbols up to the first that does not derive the empty
string. Nothing begins with an undeclared symbol. -/
def ofString (sets : FirstSets) : List Symbol → FirstSet
  | [] => ⟨∅, true⟩
  | symbol :: rest =>
      match sets.ofSymbol? symbol with
      | none => ∅
      | some first =>
          if first.epsilon then
            let following := sets.ofString rest
            ⟨first.terminals ∪ following.terminals, following.epsilon⟩
          else
            first

/-- The union of the sets of `string` followed by each of the lookaheads. -/
def ofStringThen (sets : FirstSets) (string : List Symbol) (lookaheads : TerminalSet) :
    TerminalSet :=
  let first := sets.ofString string
  if first.epsilon then first.terminals ∪ lookaheads else first.terminals

def isNullable (sets : FirstSets) (symbol : Symbol) : Bool :=
  (sets.ofSymbol? symbol).any FirstSet.epsilon

/-- Adds the set of a rule's right-hand side to the rule and to its left-hand side. -/
def absorbRule (sets : FirstSets) (numbered : Rule α × RuleId) : FirstSets :=
  let first := sets.ofString numbered.1.right
  { sets with
    rules := sets.rules.modify numbered.2 (· ∪ first)
    nonterminals := sets.nonterminals.modify numbered.1.left (· ∪ first) }

/-- One round over all rules in order; each rule sees what the rules before it have added. -/
def propagate (grammar : Grammar α) (sets : FirstSets) : FirstSets :=
  grammar.numberedRules.foldl absorbRule sets

/-- As many rounds as there are pairs of a symbol or rule and an element that its set can hold. -/
def roundLimit (grammar : Grammar α) : Nat :=
  (grammar.terminals.length + grammar.nonterminals.length + grammar.rules.length) *
    (grammar.terminals.length + 1)

def compute (grammar : Grammar α) : FirstSets :=
  saturate (propagate grammar) (roundLimit grammar) (initial grammar)

/-- Whether the set of every symbol contains that of the same symbol in `inner`. -/
def isSuperset (outer inner : FirstSets) : Bool :=
  inner.terminalCount ≤ outer.terminalCount &&
    inner.nonterminals.zipIdx.all fun (set, nonterminal) =>
      (outer.nonterminals[nonterminal]?).any (·.isSuperset set)

end FirstSets

end CoolLang
