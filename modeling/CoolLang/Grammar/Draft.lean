import CoolLang.Grammar.Basic

/-!
Grammars under construction. A `Draft` starts with the reserved symbols `$` and `$start` and grows by
declarations; each takes the next free number of its kind, and a refused one leaves the draft as it
was. `Draft.finish` adds the augmented rule in front. `Grammar.ofDeclarations` runs a whole list of
declarations and skips the refused ones. A name may have no blank in it, that is no character with the
Unicode property White_Space; the core library's `Char.isWhitespace` knows four of the ASCII ones only,
each of which is blank too (`Text.isBlank_of_isWhitespace`).
-/

namespace CoolLang.Text

/-- The White_Space characters as closed ranges of code points. -/
def blankRanges : List (Nat × Nat) :=
  [(0x9, 0xD), (0x20, 0x20), (0x85, 0x85), (0xA0, 0xA0), (0x1680, 0x1680), (0x2000, 0x200A),
   (0x2028, 0x2029), (0x202F, 0x202F), (0x205F, 0x205F), (0x3000, 0x3000)]

def isBlank (char : Char) : Bool :=
  blankRanges.any fun range => range.1 ≤ char.toNat && char.toNat ≤ range.2

theorem isBlank_of_isWhitespace {char : Char} (space : char.isWhitespace = true) :
    isBlank char = true := by
  simp only [Char.isWhitespace, Bool.or_eq_true, decide_eq_true_eq] at space
  rcases space with ((rfl | rfl) | rfl) | rfl <;> decide

end CoolLang.Text

namespace CoolLang

inductive DeclarationError where
  | invalidName (name : String)
  | duplicateSymbol (name : String)
  | unknownSymbol
  | duplicateRule (left : String)
  | emptyNonterminals
deriving DecidableEq

namespace DeclarationError

def message : DeclarationError → String
  | invalidName name => "incorrect symbol name: `" ++ name ++ "'"
  | duplicateSymbol name => "the symbol `" ++ name ++ "' has already been declared"
  | unknownSymbol => "the symbol has not been declared in this grammar"
  | duplicateRule left => "duplicate production rule detected for `" ++ left ++ "'"
  | emptyNonterminals => "empty nonterminal symbols"

end DeclarationError

inductive Declaration (α : Type) where
  | terminal (name : String)
  | nonterminal (name : String)
  | rule (left : Nonterminal) (right : List Symbol) (action : α)
  | start (symbol : Nonterminal)

structure Draft (α : Type) where
  terminals : List String
  nonterminals : List String
  /-- The declared rules; the first of them will be rule 1. -/
  rules : List (Rule α)
  start : Option Nonterminal

namespace Draft

variable {α : Type}

def initial : Draft α :=
  ⟨["$"], ["$start"], [], none⟩

/-- A name is a nonempty text without blanks that does not start with the sign of the reserved
symbols. -/
def isName (name : String) : Bool :=
  !name.isEmpty && name.toList.head? != some '$' && !name.toList.any Text.isBlank

def isDeclaredName (draft : Draft α) (name : String) : Bool :=
  draft.terminals.contains name || draft.nonterminals.contains name

def isUsableNonterminal (draft : Draft α) (nonterminal : Nonterminal) : Bool :=
  nonterminal != Nonterminal.augmented && nonterminal < draft.nonterminals.length

def isUsable (draft : Draft α) : Symbol → Bool
  | .terminal terminal => terminal != Terminal.eoi && terminal < draft.terminals.length
  | .nonterminal nonterminal => draft.isUsableNonterminal nonterminal

/-- Refuses a name that is none, then one that is taken, whichever kind of symbol took it. -/
def checkName (draft : Draft α) (name : String) : Except DeclarationError Unit :=
  if !isName name then .error (.invalidName name)
  else if draft.isDeclaredName name then .error (.duplicateSymbol name)
  else .ok ()

def addTerminal (draft : Draft α) (name : String) :
    Except DeclarationError (Terminal × Draft α) := do
  draft.checkName name
  return (draft.terminals.length, { draft with terminals := draft.terminals ++ [name] })

def addNonterminal (draft : Draft α) (name : String) :
    Except DeclarationError (Nonterminal × Draft α) := do
  draft.checkName name
  return (draft.nonterminals.length, { draft with nonterminals := draft.nonterminals ++ [name] })

def hasRule (draft : Draft α) (left : Nonterminal) (right : List Symbol) : Bool :=
  draft.rules.any fun rule => rule.left == left && rule.right == right

def addRule (draft : Draft α) (left : Nonterminal) (right : List Symbol) (action : α) :
    Except DeclarationError (RuleId × Draft α) :=
  if !draft.isUsableNonterminal left || !right.all draft.isUsable then
    .error .unknownSymbol
  else if draft.hasRule left right then
    .error (.duplicateRule (draft.nonterminals[left]?.getD ""))
  else
    .ok (draft.rules.length + 1,
      { draft with rules := draft.rules ++ [⟨left, right, some action⟩] })

/-- Sets the start symbol; of several the last one counts. -/
def setStart (draft : Draft α) (symbol : Nonterminal) : Except DeclarationError (Draft α) :=
  if draft.isUsableNonterminal symbol then .ok { draft with start := some symbol }
  else .error .unknownSymbol

/-- Runs one declaration. The number is the new symbol's or rule's; a start symbol makes none. -/
def declare (draft : Draft α) : Declaration α → Except DeclarationError (Option Nat × Draft α)
  | .terminal name => do
      let (number, next) ← draft.addTerminal name
      return (some number, next)
  | .nonterminal name => do
      let (number, next) ← draft.addNonterminal name
      return (some number, next)
  | .rule left right action => do
      let (number, next) ← draft.addRule left right action
      return (some number, next)
  | .start symbol => do
      let next ← draft.setStart symbol
      return (none, next)

/-- Runs one declaration and keeps the draft when it is refused. -/
def declareOrSkip (draft : Draft α) (declaration : Declaration α) : Draft α :=
  match draft.declare declaration with
  | .ok (_, next) => next
  | .error _ => draft

/-- Augments the draft. Without a declared start symbol the first declared nonterminal is it. -/
def finish (draft : Draft α) : Except DeclarationError (Grammar α) :=
  let firstDeclared := if draft.nonterminals.length > 1 then some 1 else none
  match draft.start.or firstDeclared with
  | none => .error .emptyNonterminals
  | some start => .ok
      { terminals := draft.terminals
        nonterminals := draft.nonterminals
        rules := ⟨Nonterminal.augmented, [.nonterminal start], none⟩ :: draft.rules
        start := start }

end Draft

/-- The grammar that a list of declarations builds, refused declarations being skipped. -/
def Grammar.ofDeclarations {α : Type} (declarations : List (Declaration α)) :
    Except DeclarationError (Grammar α) :=
  (declarations.foldl Draft.declareOrSkip Draft.initial).finish

end CoolLang
