import CoolLang.Source.LineIndex
import CoolLang.Token.Comment
import CoolLang.Token.Scan

/-!
The patterns of a scanner. A scanner can be driven by any matcher that finds the longest stretch at the
front of a text that one of the patterns matches (`Matcher.IsLongest`); comments, which nest, and the
positions of tokens are not a matcher's work. `Matcher.scan` is the loop around it.
-/

namespace CoolLang

namespace TokenKind

/-- The kinds that are spelled by one sign. -/
def signs : List TokenKind :=
  [leftBrace, rightBrace, leftParen, rightParen, colon, semicolon, comma, dot, atSign, assign, arrow,
   plus, minus, star, slash, tilde, less, lessEqual, equal]

end TokenKind

/-- What is between the quotes of a string literal: no quote, no backslash and no line feed, unless a
backslash stands before it. -/
inductive StringBody : List Char → Prop where
  | empty : StringBody []
  | plain {char : Char} {rest : List Char} : char ≠ '"' → char ≠ '\\' → char ≠ '\n' →
      StringBody rest → StringBody (char :: rest)
  | escaped {char : Char} {rest : List Char} : StringBody rest → StringBody ('\\' :: char :: rest)

inductive Pattern where
  | word
  | integer
  | string
  | sign (kind : TokenKind)
  | commentOpening
  /-- Blanks, or a comment that ends with the line. -/
  | skipped
deriving DecidableEq

namespace Pattern

def Matches : Pattern → List Char → Prop
  | word, text => ∃ first rest, text = first :: rest ∧ first.isAlpha ∧ rest.all Piece.isWordChar
  | integer, text => text ≠ [] ∧ text.all Char.isDigit
  | string, text => ∃ body, text = '"' :: (body ++ ['"']) ∧ StringBody body
  | sign kind, text => kind ∈ TokenKind.signs ∧ text = kind.name.toList
  | commentOpening, text => text = ['(', '*']
  | skipped, text => text ≠ [] ∧ text.all Piece.isBlank ∨ ∃ rest, text = '-' :: '-' :: rest ∧ '\n' ∉ rest

/-- The kind of token that a match is; none for what is no token. -/
def kind? (text : List Char) : Pattern → Option TokenKind
  | word => some (TokenKind.ofSpelling text)
  | integer => some .integer
  | string => some .string
  | sign kind => some kind
  | commentOpening => none
  | skipped => none

/-- The pattern of a kind of token. -/
def ofKind (kind : TokenKind) : Pattern :=
  if kind = .integer then integer
  else if kind = .string then string
  else if kind ∈ TokenKind.signs then sign kind
  else word

/-- `text` is at the front of `chars`, is matched, and nothing longer there is matched by any pattern. -/
structure Longest (chars : List Char) (pattern : Pattern) (text : List Char) : Prop where
  front : text <+: chars
  matched : pattern.Matches text
  bound : ∀ other longer, longer <+: chars → Matches other longer → longer.length ≤ text.length

end Pattern

namespace Piece

/-- What a piece at the front of a text can be: the longest match of a token, of blanks or of a line
comment, a block comment up to where it is closed, all of the text if it is never closed, or one
character where no pattern matches. -/
inductive Fits (chars : List Char) : Piece → Prop where
  | token {pattern : Pattern} {text : List Char} {kind : TokenKind} :
      pattern.Longest chars text → pattern.kind? text = some kind → Fits chars ⟨.token kind, text⟩
  | blank {text : List Char} : Pattern.skipped.Longest chars text → text.all isBlank →
      Fits chars ⟨.blank, text⟩
  | lineComment {text : List Char} : Pattern.skipped.Longest chars ('-' :: '-' :: text) →
      Fits chars ⟨.lineComment, '-' :: '-' :: text⟩
  | blockComment {body : List Char} : Pattern.commentOpening.Longest chars ['(', '*'] →
      '(' :: '*' :: body <+: chars → ClosesComment 1 body →
      Fits chars ⟨.blockComment, '(' :: '*' :: body⟩
  | openComment {rest : List Char} : Pattern.commentOpening.Longest chars ['(', '*'] →
      chars = '(' :: '*' :: rest → (∀ body, body <+: rest → ¬ ClosesComment 1 body) →
      Fits chars ⟨.openComment, chars⟩
  | illegal {char : Char} {rest : List Char} : chars = char :: rest →
      (∀ (pattern : Pattern) (text : List Char), text <+: chars → ¬ pattern.Matches text) →
      Fits chars ⟨.illegal, [char]⟩

/-- Pieces that a text falls into, each of which fits what is left of the text where it begins. -/
inductive Cut : List Char → List Piece → Prop where
  | done : Cut [] []
  | next {piece : Piece} {rest : List Char} {pieces : List Piece} :
      piece.Fits (piece.text ++ rest) → Cut rest pieces → Cut (piece.text ++ rest) (piece :: pieces)

end Piece

namespace Piece

/-- Pieces, each with all of the text before it. -/
def locate : List Char → List Piece → List (List Char × Piece)
  | _, [] => []
  | before, piece :: pieces => (before, piece) :: locate (before ++ piece.text) pieces

end Piece

/-- A scan accounts for all of a text by its pieces: in order, each token is a token and each fault is
reported, where it begins. -/
structure Scan.Accounts (source : List Char) (pieces : List Piece) (scan : Scan) : Prop where
  cut : Piece.Cut source pieces
  whole : pieces.flatMap Piece.text = source
  /-- Only the last piece can be a comment that is never closed. -/
  open_last : ∀ front piece back, pieces = front ++ piece :: back → piece.form = .openComment → back = []
  tokens : scan.tokens =
    ((Piece.locate [] pieces).filterMap fun (before, piece) =>
      match piece.form with
      | .token kind => some ⟨kind, String.ofList piece.text, .behind before⟩
      | _ => none) ++ [⟨.endOfInput, "$", .behind source⟩]
  errors : scan.errors = (Piece.locate [] pieces).filterMap fun (before, piece) =>
    piece.fault?.map fun message => ⟨.behind before, .lexical message⟩
  faulty : ∀ piece ∈ pieces, piece.fault?.isSome ↔
    piece.form = .illegal ∨ piece.form = .openComment ∨
      piece.form = .token .integer ∧ Text.maxInteger < Text.decimalValue piece.text
  /-- Nothing but the end of the text is its end. -/
  ends_once : ∀ token ∈ scan.tokens.dropLast, token.kind ≠ .endOfInput
  ascending : (scan.tokens.map Token.position).Pairwise Position.Before

/-- What a matcher finds at the front of a text that is not empty, always one character and some more. -/
inductive Match where
  | found (pattern : Pattern) (more : Nat)
  /-- No pattern matches; so many characters have been looked at. -/
  | stuck (more : Nat)

structure Matcher where
  find : Char → List Char → Match

namespace Matcher

/-- A matcher finds the longest match, and gets stuck where no pattern matches anything. -/
def IsLongest (matcher : Matcher) : Prop :=
  ∀ char rest, match matcher.find char rest with
    | .found pattern more => pattern.Longest (char :: rest) (char :: rest.take more)
    | .stuck _ => ∀ (pattern : Pattern) (text : List Char), text <+: char :: rest → ¬ pattern.Matches text

/-- The diagnostic for an integer beyond 64 bits. -/
def rangeFault? (kind : TokenKind) (text : List Char) (position : Position) : Option Diagnostic :=
  if kind = .integer ∧ Text.maxInteger < Text.decimalValue text then
    some ⟨position, .lexical ("Integer literal " ++ String.ofList text ++ " is out of range.")⟩
  else
    none

/-- Scans what is left of a source. The matcher has been started `base` bytes into the source and has
come `stop` bytes further. Where it gets stuck on more than one character, it is started again right
after the first of them. -/
def scanFrom (matcher : Matcher) (lines : LineIndex) (base stop : Nat) : List Char → Scan
  | [] => ⟨[], []⟩
  | char :: rest =>
      let position := lines.position (base + stop)
      match matcher.find char rest with
      | .found .commentOpening more =>
          match Piece.commentEnd? 1 0 (rest.drop more) with
          | some count =>
              let next := stop + byteLength (char :: rest.take (more + count))
              scanFrom matcher lines base next (rest.drop (more + count))
          | none => ⟨[], [⟨position, .lexical "EOF in comment."⟩]⟩
      | .found pattern more =>
          let text := char :: rest.take more
          let later := scanFrom matcher lines base (stop + byteLength text) (rest.drop more)
          match pattern.kind? text with
          | some kind =>
              ⟨⟨kind, String.ofList text, position⟩ :: later.tokens,
                (rangeFault? kind text position).toList ++ later.errors⟩
          | none => later
      | .stuck more =>
          let text := char :: rest.take more
          let fault : Diagnostic :=
            ⟨position, .lexical ("Illegal character '" ++ Text.escapeChar char ++ "'.")⟩
          let later :=
            if char.utf8Size < byteLength text then
              scanFrom matcher lines (base + stop + char.utf8Size) 0 rest
            else
              scanFrom matcher lines base (stop + byteLength text) (rest.drop more)
          ⟨later.tokens, fault :: later.errors⟩
termination_by chars => chars.length
decreasing_by all_goals simp only [List.length_drop, List.length_cons]; omega

def scan (matcher : Matcher) (source : String) : Scan :=
  let lines := LineIndex.ofSource source.toList
  let scanned := matcher.scanFrom lines 0 0 source.toList
  { tokens := scanned.tokens ++ [Token.endOfInput (lines.position (byteLength source.toList))]
    errors := scanned.errors }

/-- The matcher that recognizes what the pieces of a text begin with. Behind a quote it looks as far as
the string literal could go on. -/
def standard : Matcher where
  find char rest :=
    match Piece.recognize char rest with
    | (.token kind, more) => .found (Pattern.ofKind kind) more
    | (.blank, more) => .found .skipped more
    | (.lineComment, more) => .found .skipped more
    | (.blockComment, _) => .found .commentOpening 1
    | (.openComment, _) => .found .commentOpening 1
    | (.illegal, _) => .stuck (if char = '"' then Piece.runLength (· ≠ '\n') rest else 0)

end Matcher

end CoolLang
