import CoolLang.Grammar.TerminalSet

/-!
Context-free grammars with numbered symbols and rules. A grammar is augmented: terminal 0 is the end
of input `$`, nonterminal 0 is `$start`, and rule 0 is `$start := S` for the start symbol `S`.
`Grammar.WellFormed` says so, and that the rules mention declared symbols only; what a sequence of
declarations builds is well formed. Every rule but rule 0 carries an action of type `α`.
-/

namespace CoolLang

/-- A nonterminal symbol, known by its place in the grammar's list of nonterminals. -/
abbrev Nonterminal := Nat

/-- A rule's place in the grammar's list of rules. -/
abbrev RuleId := Nat

/-- The end of input. -/
def Terminal.eoi : Terminal := 0

/-- The left-hand side of the augmented rule. -/
def Nonterminal.augmented : Nonterminal := 0

/-- The augmented rule, which ends every parse. -/
def RuleId.augmented : RuleId := 0

inductive Symbol where
  | terminal (terminal : Terminal)
  | nonterminal (nonterminal : Nonterminal)
deriving DecidableEq, Inhabited

/-- A production rule. The right-hand side of an epsilon rule is empty. -/
structure Rule (α : Type) where
  left : Nonterminal
  right : List Symbol
  action : Option α

structure Grammar (α : Type) where
  /-- The terminals' names, in the order of their numbers. -/
  terminals : List String
  /-- The nonterminals' names, in the order of their numbers. -/
  nonterminals : List String
  rules : List (Rule α)
  start : Nonterminal

namespace Grammar

variable {α : Type}

def rule? (grammar : Grammar α) (rule : RuleId) : Option (Rule α) :=
  grammar.rules[rule]?

/-- The rules with their numbers, in ascending order. -/
def numberedRules (grammar : Grammar α) : List (Rule α × RuleId) :=
  grammar.rules.zipIdx

/-- The numbers of the rules for a nonterminal, in ascending order. -/
def rulesOf (grammar : Grammar α) (left : Nonterminal) : List (Rule α × RuleId) :=
  grammar.numberedRules.filter fun numbered => numbered.1.left == left

/-- The right-hand side of a rule; empty for a number that no rule has. -/
def right (grammar : Grammar α) (rule : RuleId) : List Symbol :=
  (grammar.rule? rule).elim [] Rule.right

/-- All symbols, terminals first. -/
def symbols (grammar : Grammar α) : List Symbol :=
  (List.range grammar.terminals.length).map .terminal ++
    (List.range grammar.nonterminals.length).map .nonterminal

def symbolName? (grammar : Grammar α) : Symbol → Option String
  | .terminal terminal => grammar.terminals[terminal]?
  | .nonterminal nonterminal => grammar.nonterminals[nonterminal]?

/-- The name of a symbol; the empty text for a symbol that was never declared. -/
def symbolName (grammar : Grammar α) (symbol : Symbol) : String :=
  (grammar.symbolName? symbol).getD ""

def terminalName (grammar : Grammar α) (terminal : Terminal) : String :=
  grammar.symbolName (.terminal terminal)

def nonterminalName (grammar : Grammar α) (nonterminal : Nonterminal) : String :=
  grammar.symbolName (.nonterminal nonterminal)

/-- A rule is written `left := right1 right2 ...`, an empty right-hand side as `ε`. -/
def ruleText (grammar : Grammar α) (rule : Rule α) : String :=
  let right := if rule.right.isEmpty then " ε" else
    String.join (rule.right.map fun symbol => " " ++ grammar.symbolName symbol)
  grammar.nonterminalName rule.left ++ " :=" ++ right

/-- The listing of a grammar: the names of its terminals, then its nonterminals with the start symbol
marked, then its rules, each group under a heading. -/
def listing (grammar : Grammar α) : String :=
  let terminals := grammar.terminals.map (· ++ "\n")
  let nonterminals := grammar.nonterminals.zipIdx.map fun (name, nonterminal) =>
    name ++ (if nonterminal = grammar.start then " (start)" else "") ++ "\n"
  let rules := grammar.rules.map fun rule => grammar.ruleText rule ++ "\n"
  "## terminals:\n" ++ String.join terminals ++
    "\n## nonterminals:\n" ++ String.join nonterminals ++
    "\n## rules:\n" ++ String.join rules

/-- Whether a symbol may stand in a right-hand side: it is declared, and it is neither the end of
input nor `$start`. -/
def Usable (grammar : Grammar α) : Symbol → Prop
  | .terminal terminal => terminal ≠ Terminal.eoi ∧ terminal < grammar.terminals.length
  | .nonterminal nonterminal =>
      nonterminal ≠ Nonterminal.augmented ∧ nonterminal < grammar.nonterminals.length

/-- What every declared grammar satisfies. -/
structure WellFormed (grammar : Grammar α) : Prop where
  terminals_head : grammar.terminals.head? = some "$"
  nonterminals_head : grammar.nonterminals.head? = some "$start"
  names_nodup : (grammar.terminals ++ grammar.nonterminals).Nodup
  start_usable : grammar.Usable (.nonterminal grammar.start)
  rules_head : grammar.rules.head? =
    some ⟨Nonterminal.augmented, [.nonterminal grammar.start], none⟩
  left_usable : ∀ rule ∈ grammar.rules.tail, grammar.Usable (.nonterminal rule.left)
  right_usable : ∀ rule ∈ grammar.rules.tail, ∀ symbol ∈ rule.right, grammar.Usable symbol
  action_isSome : ∀ rule ∈ grammar.rules.tail, rule.action.isSome
  sides_nodup : (grammar.rules.map fun rule => (rule.left, rule.right)).Nodup

end Grammar

end CoolLang
