import CoolLang.Grammar.Draft
import CoolLang.Keyed

/-!
Defining a grammar step by step. A `Definition` keeps symbols and rules under the numbers that they were given, and
beside them the number that each kind gives next. A declaration is a sequence of steps, any of which can refuse it;
whatever the steps before it have changed stays changed. `Definition.define` runs a list of declarations, goes on
after a refused one, and finishes with the augmented rule.
-/

namespace CoolLang

/-- Values by number. -/
abbrev Numbered (β : Type) := Keyed Nat β

namespace Numbered

variable {β : Type}

def contains (entries : Numbered β) (number : Nat) : Bool :=
  entries.any fun entry => entry.1 == number

def get? (entries : Numbered β) (number : Nat) : Option β :=
  (entries.find? fun entry => entry.1 == number).map Prod.snd

/-- The values in ascending order of their numbers. -/
def sort (entries : Numbered β) : Numbered β :=
  entries.mergeSort fun first second => first.1 ≤ second.1

end Numbered

structure Definition (α : Type) where
  terminals : Numbered String
  nonterminals : Numbered String
  rules : Numbered (Rule α)
  start : Option Nonterminal
  nextTerminal : Nat
  nextNonterminal : Nat
  nextRule : Nat

/-- Steps on a definition. One that refuses to go on leaves the changes of those before it. -/
abbrev Defining (α β : Type) := ExceptT DeclarationError (StateM (Definition α)) β

namespace Definition

variable {α : Type}

def initial : Definition α where
  terminals := [(Terminal.eoi, "$")]
  nonterminals := [(Nonterminal.augmented, "$start")]
  rules := []
  start := none
  nextTerminal := Terminal.eoi + 1
  nextNonterminal := Nonterminal.augmented + 1
  nextRule := RuleId.augmented + 1

/-- Refuses a name that is none, then one that some symbol has. -/
def checkName (name : String) : Defining α Unit := do
  if !Draft.isName name then throw (.invalidName name)
  let definition ← get
  if definition.terminals.any (fun entry => entry.2 == name) ||
      definition.nonterminals.any (fun entry => entry.2 == name) then
    throw (.duplicateSymbol name)

def addTerminal (name : String) : Defining α Terminal := do
  checkName name
  let number := (← get).nextTerminal
  modify fun definition => { definition with nextTerminal := definition.nextTerminal + 1 }
  modify fun definition => { definition with terminals := definition.terminals.insert number name }
  return number

def addNonterminal (name : String) : Defining α Nonterminal := do
  checkName name
  let number := (← get).nextNonterminal
  modify fun definition => { definition with nextNonterminal := definition.nextNonterminal + 1 }
  modify fun definition => { definition with nonterminals := definition.nonterminals.insert number name }
  return number

/-- Refuses a nonterminal that is reserved or was not declared. -/
def checkNonterminal (nonterminal : Nonterminal) : Defining α Unit := do
  if nonterminal == Nonterminal.augmented || !(← get).nonterminals.contains nonterminal then
    throw .unknownSymbol

/-- Refuses a symbol that is reserved or was not declared. -/
def checkSymbol : Symbol → Defining α Unit
  | .terminal terminal => do
      if terminal == Terminal.eoi || !(← get).terminals.contains terminal then throw .unknownSymbol
  | .nonterminal nonterminal => checkNonterminal nonterminal

/-- Refuses a rule that has been declared already. -/
def checkRule (left : Nonterminal) (right : List Symbol) : Defining α Unit := do
  let definition ← get
  if definition.rules.any fun entry => entry.2.left == left && entry.2.right == right then
    throw (.duplicateRule ((definition.nonterminals.get? left).getD ""))

def addRule (left : Nonterminal) (right : List Symbol) (action : α) : Defining α RuleId := do
  checkNonterminal left
  right.forM checkSymbol
  checkRule left right
  let number := (← get).nextRule
  modify fun definition => { definition with nextRule := definition.nextRule + 1 }
  modify fun definition => { definition with rules := definition.rules.insert number ⟨left, right, some action⟩ }
  return number

def setStart (symbol : Nonterminal) : Defining α Unit := do
  checkNonterminal symbol
  modify fun definition => { definition with start := some symbol }

/-- Runs one declaration. The number is the new symbol's or rule's; a start symbol makes none. -/
def declare : Declaration α → Defining α (Option Nat)
  | .terminal name => return some (← addTerminal name)
  | .nonterminal name => return some (← addNonterminal name)
  | .rule left right action => return some (← addRule left right action)
  | .start symbol => do
      setStart symbol
      return none

/-- What a declaration is answered with: a number, or why it is refused. -/
abbrev Answer := Except DeclarationError (Option Nat)

/-- Runs declarations in order, the refused ones too, and keeps the answers. -/
def declareAll : List (Declaration α) → StateM (Definition α) (List Answer)
  | [] => return []
  | declaration :: declarations => do
      let answer ← (declare declaration).run
      let answers ← declareAll declarations
      return answer :: answers

/-- Takes the start symbol, which is the first declared nonterminal where none was set. -/
def takeStart : Defining α Nonterminal := do
  let definition ← get
  match definition.start with
  | some start =>
      set { definition with start := none }
      return start
  | none =>
      match definition.nonterminals.find? fun entry => entry.1 != Nonterminal.augmented with
      | some entry => return entry.1
      | none => throw .emptyNonterminals

/-- Adds the augmented rule and puts it in front. -/
def finish : Defining α (Grammar α) := do
  let start ← takeStart
  modify fun definition => { definition with
    rules := definition.rules.insert RuleId.augmented ⟨Nonterminal.augmented, [.nonterminal start], none⟩ }
  modify fun definition => { definition with rules := definition.rules.sort }
  let definition ← get
  return {
    terminals := definition.terminals.map Prod.snd
    nonterminals := definition.nonterminals.map Prod.snd
    rules := definition.rules.map Prod.snd
    start := start }

/-- The answers to a list of declarations, the grammar that they define, and all symbols and rules by number. -/
def define (declarations : List (Declaration α)) :
    (List Answer × Except DeclarationError (Grammar α)) × Definition α :=
  let (answers, declared) := (declareAll declarations).run initial
  let (outcome, finished) := finish.run.run declared
  ((answers, outcome), finished)

end Definition

end CoolLang
