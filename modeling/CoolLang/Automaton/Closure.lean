import CoolLang.Grammar.First

/-!
LR(1) items, item sets and their closure. An item is a rule with a marker in its right-hand side; an item
set holds each item at most once, with the set of its lookaheads, in ascending order of rule and marker.
Wherever a nonterminal stands after a marker, the items at the start of its rules belong to the closure,
and all rules of one nonterminal get the same lookaheads. So the closure is computed as one lookahead set
for each nonterminal that is expected at all (`Predictions`), and the items follow from that.
-/

namespace CoolLang

/-- `marker` symbols of the rule's right-hand side are behind the marker. -/
structure Item where
  rule : RuleId
  marker : Nat
deriving DecidableEq

/-- Items with their lookaheads, ascending by rule and then by marker. -/
abbrev ItemSet := List (Item × TerminalSet)

namespace Item

variable {α : Type}

def advance (item : Item) : Item :=
  { item with marker := item.marker + 1 }

/-- The symbol right after the marker; none in a complete item. -/
def next? (grammar : Grammar α) (item : Item) : Option Symbol :=
  (grammar.right item.rule)[item.marker]?

/-- An item is written like its rule, in parentheses and with a point where the marker is. -/
def text (grammar : Grammar α) (item : Item) : String :=
  let right := grammar.right item.rule
  let pieces := right.zipIdx.map fun (symbol, place) =>
    (if place = item.marker then " . " else " ") ++ grammar.symbolName symbol
  let left := (grammar.rule? item.rule).elim "" fun rule => grammar.nonterminalName rule.left
  "(" ++ left ++ " :=" ++ String.join pieces ++
    (if item.marker = right.length then " .)" else ")")

end Item

namespace ItemSet

variable {α : Type}

/-- The lookaheads of an item that is in the set. -/
def lookaheads? (items : ItemSet) (item : Item) : Option TerminalSet :=
  (items.find? fun entry => entry.1 == item).map Prod.snd

/-- The items with `symbol` after the marker, each with its marker moved past it. -/
def advanceOver (grammar : Grammar α) (items : ItemSet) (symbol : Symbol) : ItemSet :=
  items.filterMap fun (item, lookaheads) =>
    if item.next? grammar = some symbol then some (item.advance, lookaheads) else none

/-- The symbols that stand after a marker, in the order of the first items that have them there. -/
def nextSymbols (grammar : Grammar α) (items : ItemSet) : List Symbol :=
  (items.filterMap fun entry => entry.1.next? grammar).eraseDups

end ItemSet

/-- For each nonterminal, by number, the terminals that can follow it here; `none` where the
nonterminal is not expected. -/
abbrev Predictions := List (Option TerminalSet)

namespace Predictions

variable {α : Type}

def none (grammar : Grammar α) : Predictions :=
  grammar.nonterminals.map fun _ => Option.none

def get? (predictions : Predictions) (nonterminal : Nonterminal) : Option TerminalSet :=
  predictions[nonterminal]?.join

/-- Expects a nonterminal, followed by the given terminals besides those known already. -/
def expect (predictions : Predictions) (nonterminal : Nonterminal) (lookaheads : TerminalSet) :
    Predictions :=
  predictions.modify nonterminal fun known => some (known.getD ∅ ∪ lookaheads)

/-- Expects the nonterminal after the marker of an item, if one stands there: what can follow it is
what begins the rest of the rule, and the item's own lookaheads where the rest can be empty. -/
def expectAfter (grammar : Grammar α) (firsts : FirstSets) (predictions : Predictions)
    (entry : Item × TerminalSet) : Predictions :=
  match (grammar.right entry.1.rule).drop entry.1.marker with
  | .nonterminal nonterminal :: rest =>
      predictions.expect nonterminal (firsts.ofStringThen rest entry.2)
  | _ => predictions

def ofKernel (grammar : Grammar α) (firsts : FirstSets) (kernel : ItemSet) : Predictions :=
  kernel.foldl (expectAfter grammar firsts) (none grammar)

/-- The item at the start of a rule, where the rule's nonterminal is expected. -/
def startItem? (predictions : Predictions) (numbered : Rule α × RuleId) :
    Option (Item × TerminalSet) :=
  (predictions.get? numbered.1.left).map fun lookaheads => (⟨numbered.2, 0⟩, lookaheads)

/-- One round over all rules of the expected nonterminals. -/
def propagate (grammar : Grammar α) (firsts : FirstSets) (predictions : Predictions) :
    Predictions :=
  grammar.numberedRules.foldl
    (fun current numbered =>
      match current.startItem? numbered with
      | some entry => current.expectAfter grammar firsts entry
      | Option.none => current)
    predictions

/-- As many rounds as there are nonterminals to expect and terminals to follow each. -/
def roundLimit (grammar : Grammar α) : Nat :=
  grammar.nonterminals.length * (grammar.terminals.length + 1)

def compute (grammar : Grammar α) (firsts : FirstSets) (kernel : ItemSet) : Predictions :=
  saturate (propagate grammar firsts) (roundLimit grammar) (ofKernel grammar firsts kernel)

end Predictions

/-- The least item set that holds the kernel and, wherever a nonterminal stands after the marker of
an item, the items at the start of the nonterminal's rules. -/
def ItemSet.closure {α : Type} (grammar : Grammar α) (firsts : FirstSets) (kernel : ItemSet) :
    ItemSet :=
  let predictions := Predictions.compute grammar firsts kernel
  grammar.numberedRules.flatMap fun numbered =>
    (predictions.startItem? numbered).toList ++
      kernel.filter fun entry => entry.1.rule == numbered.2

end CoolLang
