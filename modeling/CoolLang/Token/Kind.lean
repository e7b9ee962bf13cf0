import CoolLang.Grammar.Basic
import CoolLang.Source.Position

/-!
The kinds of tokens. Each kind is a terminal of the language's grammar: the end of input is terminal 0
and the other kinds follow in the order in which they are listed here.
-/

namespace CoolLang

inductive TokenKind where
  | endOfInput
  | classWord
  | inheritsWord
  | ifWord
  | thenWord
  | elseWord
  | fiWord
  | whileWord
  | loopWord
  | poolWord
  | letWord
  | inWord
  | caseWord
  | ofWord
  | esacWord
  | newWord
  | isvoidWord
  | notWord
  | trueWord
  | falseWord
  | typeName
  | objectName
  | integer
  | string
  | leftBrace
  | rightBrace
  | leftParen
  | rightParen
  | colon
  | semicolon
  | comma
  | dot
  | atSign
  | assign
  | arrow
  | plus
  | minus
  | star
  | slash
  | tilde
  | less
  | lessEqual
  | equal
deriving DecidableEq, Inhabited

namespace TokenKind

/-- All kinds, in the order of their terminals. -/
def all : List TokenKind :=
  [endOfInput, classWord, inheritsWord, ifWord, thenWord, elseWord, fiWord, whileWord, loopWord,
   poolWord, letWord, inWord, caseWord, ofWord, esacWord, newWord, isvoidWord, notWord, trueWord,
   falseWord, typeName, objectName, integer, string, leftBrace, rightBrace, leftParen, rightParen,
   colon, semicolon, comma, dot, atSign, assign, arrow, plus, minus, star, slash, tilde, less, lessEqual,
   equal]

def terminal (kind : TokenKind) : Terminal :=
  kind.ctorIdx

theorem all_getElem?_terminal (kind : TokenKind) : all[kind.terminal]? = some kind := by
  cases kind <;> rfl

/-- The name of the kind's terminal. -/
def name : TokenKind → String
  | endOfInput => "$"
  | classWord => "class"
  | inheritsWord => "inherits"
  | ifWord => "if"
  | thenWord => "then"
  | elseWord => "else"
  | fiWord => "fi"
  | whileWord => "while"
  | loopWord => "loop"
  | poolWord => "pool"
  | letWord => "let"
  | inWord => "in"
  | caseWord => "case"
  | ofWord => "of"
  | esacWord => "esac"
  | newWord => "new"
  | isvoidWord => "isvoid"
  | notWord => "not"
  | trueWord => "true"
  | falseWord => "false"
  | typeName => "TYPE"
  | objectName => "id"
  | integer => "integer"
  | string => "string"
  | leftBrace => "\x7b"
  | rightBrace => "\x7d"
  | leftParen => "("
  | rightParen => ")"
  | colon => ":"
  | semicolon => ";"
  | comma => ","
  | dot => "."
  | atSign => "@"
  | assign => "<-"
  | arrow => "=>"
  | plus => "+"
  | minus => "-"
  | star => "*"
  | slash => "/"
  | tilde => "~"
  | less => "<"
  | lessEqual => "<="
  | equal => "="

/-- The kinds that are spelled by one fixed word in letters of either case. -/
def keywords : List TokenKind :=
  [classWord, inheritsWord, ifWord, thenWord, elseWord, fiWord, whileWord, loopWord, poolWord,
   letWord, inWord, caseWord, ofWord, esacWord, newWord, isvoidWord, notWord]

/-- The kind of a word: a keyword in letters of any case, a truth value in letters of any case but the
first, or else the name of a type or an object, told apart by the case of the first letter. -/
def ofSpelling (word : List Char) : TokenKind :=
  let lower := String.ofList (word.map Char.toLower)
  match keywords.find? fun keyword => keyword.name == lower with
  | some keyword => keyword
  | none =>
      if lower = "true" ∧ word.head? = some 't' then trueWord
      else if lower = "false" ∧ word.head? = some 'f' then falseWord
      else if word.head?.any Char.isUpper then typeName
      else objectName

end TokenKind

structure Token where
  kind : TokenKind
  lexeme : String
  position : Position
deriving DecidableEq, Inhabited

end CoolLang
