import CoolLang.Program.Parser
import CoolLang.Proofs.Automaton.CompanyCheck

/-!
The table of the language's grammar is free of conflicts (`Program.isLR1_table`). Of each phrase it is
said which kinds of tokens begin it and which can follow it; that no rule adds to these lists and that
they tell all items in company apart is calculated.
-/

namespace CoolLang

namespace Phrase

open TokenKind

def callStarters : List TokenKind :=
  [objectName, integer, string, trueWord, falseWord, newWord, leftParen]

def factorStarters : List TokenKind :=
  [isvoidWord, tilde] ++ callStarters

def exprStarters : List TokenKind :=
  [ifWord, whileWord, leftBrace, letWord, caseWord, notWord] ++ factorStarters

/-- What can begin a phrase. -/
def starters : Phrase → List TokenKind
  | whole | program | classList | classDef => [classWord]
  | featureList | feature | paramList | param | letList | letBinding | caseList => [objectName]
  | expr | exprList | argList => exprStarters
  | truth => notWord :: factorStarters
  | comparison | arith | term | factor => factorStarters
  | voidFactor => tilde :: callStarters
  | callFactor | atom => callStarters
  | call => [dot, atSign]
  | memberCall => [objectName]

def exprFollowers : List TokenKind :=
  [thenWord, elseWord, fiWord, loopWord, poolWord, inWord, ofWord, rightBrace, rightParen, semicolon,
   comma]

def arithFollowers : List TokenKind :=
  [plus, minus, less, lessEqual, equal] ++ exprFollowers

def factorFollowers : List TokenKind :=
  [star, slash] ++ arithFollowers

/-- What can follow a phrase. -/
def followers : Phrase → List TokenKind
  | whole | program | classList => [endOfInput]
  | classDef => [endOfInput, classWord]
  | featureList | exprList => [rightBrace]
  | feature => [rightBrace, objectName]
  | paramList | argList => [rightParen]
  | param => [rightParen, comma]
  | letList => [inWord]
  | letBinding => [inWord, comma]
  | caseList => [esacWord]
  | expr | truth => exprFollowers
  | comparison => [less, lessEqual, equal] ++ exprFollowers
  | arith => arithFollowers
  | term | factor | voidFactor => factorFollowers
  | callFactor | call | atom | memberCall => [dot, atSign] ++ factorFollowers

end Phrase

/-- The terminals of some kinds of tokens. -/
def TerminalSet.ofKinds (kinds : List TokenKind) : TerminalSet :=
  .ofList (kinds.map TokenKind.terminal)

namespace Program

/-- The starters of each phrase; only a list of features can be empty. -/
def starterSets : FirstSets where
  terminalCount := TokenKind.all.length
  nonterminals := Phrase.all.map fun phrase =>
    ⟨.ofKinds phrase.starters, phrase = Phrase.featureList⟩
  rules := []

def followerSets : FollowSets :=
  ⟨Phrase.all.map fun phrase => .ofKinds phrase.followers⟩

instance (symbol : Symbol) : Decidable (grammar.Usable symbol) :=
  match symbol with
  | .terminal terminal =>
      inferInstanceAs (Decidable (terminal ≠ Terminal.eoi ∧ terminal < grammar.terminals.length))
  | .nonterminal nonterminal =>
      inferInstanceAs (Decidable (nonterminal ≠ Nonterminal.augmented ∧
        nonterminal < grammar.nonterminals.length))

theorem grammar_wellFormed : grammar.WellFormed where
  terminals_head := rfl
  nonterminals_head := rfl
  names_nodup := by decide +kernel
  start_usable := by decide +kernel
  rules_head := rfl
  left_usable := by decide +kernel
  right_usable := by decide +kernel
  action_isSome := by decide +kernel
  sides_nodup := by decide +kernel

theorem mem_followerSets {terminal : Terminal} {nonterminal : Nonterminal}
    (follows : grammar.Follows terminal nonterminal) :
    terminal ∈ (followerSets.get? nonterminal).getD ∅ := by
  have firstsClosed : starterSets.Closed grammar :=
    FirstSets.closed_of_isClosed (by decide +kernel)
  have closed : followerSets.Closed grammar starterSets :=
    FollowSets.closed_of_isClosed (by decide +kernel)
  obtain ⟨set, found, member⟩ :=
    closed.mem_of_follows firstsClosed rfl grammar_wellFormed follows
  rw [found]
  exact member

theorem check_rows :
    (Rows.ofGrammar grammar 12 3).check grammar 12 followerSets = true := by
  decide +kernel

theorem isLR1_table : table.isLR1 = true :=
  ParseTable.isLR1_of_check grammar_wellFormed mem_followerSets check_rows

end Program

end CoolLang
