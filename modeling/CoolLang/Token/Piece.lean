import CoolLang.Token.Kind

/-!
The pieces of a source text. Every text is cut, without gap or overlap, into tokens, blanks, comments
and illegal characters; each piece is the longest that the rules of its first characters allow
(`Piece.split`, `Piece.text_split`).
-/

namespace CoolLang

inductive PieceForm where
  | token (kind : TokenKind)
  | blank
  | lineComment
  | blockComment
  /-- A block comment that the text ends in. -/
  | openComment
  | illegal
deriving DecidableEq

structure Piece where
  form : PieceForm
  text : List Char
deriving DecidableEq

namespace Piece

def isBlank (char : Char) : Bool :=
  char = ' ' || char = '\t' || char = '\r' || char = '\n' || char = '\x0c' || char = '\x0b'

def isWordChar (char : Char) : Bool :=
  char.isAlphanum || char = '_'

/-- How many characters at the front pass a test. -/
def runLength (test : Char → Bool) (chars : List Char) : Nat :=
  (chars.takeWhile test).length

/-- Where the comment ends that `depth` openings deep begins here: one past the closing that closes
the outermost opening, `count` further on; none if it is never closed. Openings and closings are read
from left to right and do not overlap. -/
def commentEnd? : Nat → Nat → List Char → Option Nat
  | depth, count, '(' :: '*' :: rest => commentEnd? (depth + 1) (count + 2) rest
  | depth, count, '*' :: ')' :: rest =>
      if depth ≤ 1 then some (count + 2) else commentEnd? (depth - 1) (count + 2) rest
  | depth, count, _ :: rest => commentEnd? depth (count + 1) rest
  | _, _, [] => none

/-- Where the string literal ends whose opening quote is right before: one past the first quote that no
backslash escapes, `count` further on. A literal has no line feed but after a backslash. -/
def stringEnd? : Nat → List Char → Option Nat
  | count, '"' :: _ => some (count + 1)
  | count, '\\' :: _ :: rest => stringEnd? (count + 2) rest
  | _, '\n' :: _ => none
  | count, _ :: rest => stringEnd? (count + 1) rest
  | _, [] => none

/-- The form of the piece that begins with two given characters, where both together decide it, and
how many of the characters after these belong to it. -/
def ofPair? : Char → Char → List Char → Option (PieceForm × Nat)
  | '(', '*', rest =>
      match commentEnd? 1 0 rest with
      | some count => some (.blockComment, count)
      | none => some (.openComment, rest.length)
  | '-', '-', rest => some (.lineComment, runLength (· ≠ '\n') rest)
  | '<', '-', _ => some (.token .assign, 0)
  | '<', '=', _ => some (.token .lessEqual, 0)
  | '=', '>', _ => some (.token .arrow, 0)
  | _, _, _ => none

/-- The form of the piece that begins with a given character, where the next one decides it too, and
how many of the characters after the first belong to it. -/
def ofTwo? (first : Char) : List Char → Option (PieceForm × Nat)
  | [] => none
  | second :: rest => (ofPair? first second rest).map fun recognized =>
      (recognized.1, recognized.2 + 1)

/-- The kind of token that a single character is. -/
def ofChar? : Char → Option TokenKind
  | '\x7b' => some .leftBrace
  | '\x7d' => some .rightBrace
  | '(' => some .leftParen
  | ')' => some .rightParen
  | ':' => some .colon
  | ';' => some .semicolon
  | ',' => some .comma
  | '.' => some .dot
  | '@' => some .atSign
  | '+' => some .plus
  | '-' => some .minus
  | '*' => some .star
  | '/' => some .slash
  | '~' => some .tilde
  | '<' => some .less
  | '=' => some .equal
  | _ => none

/-- The form of the piece that begins with a given character, and how many of the characters after it
belong to it. A quote that begins no string literal is illegal by itself. -/
def recognize (char : Char) (rest : List Char) : PieceForm × Nat :=
  if isBlank char then (.blank, runLength isBlank rest)
  else if char.isAlpha then
    let word := rest.takeWhile isWordChar
    (.token (TokenKind.ofSpelling (char :: word)), word.length)
  else if char.isDigit then (.token .integer, runLength Char.isDigit rest)
  else if char = '"' then
    match stringEnd? 0 rest with
    | some count => (.token .string, count)
    | none => (.illegal, 0)
  else
    match ofTwo? char rest, ofChar? char with
    | some recognized, _ => recognized
    | none, some kind => (.token kind, 0)
    | none, none => (.illegal, 0)

/-- Cuts a text into pieces. -/
def split : List Char → List Piece
  | [] => []
  | char :: rest =>
      let (form, count) := recognize char rest
      ⟨form, char :: rest.take count⟩ :: split (rest.drop count)
termination_by chars => chars.length
decreasing_by
  simp only [List.length_drop, List.length_cons]
  omega

/-- The pieces in order are the whole text. -/
theorem text_split (chars : List Char) : (split chars).flatMap Piece.text = chars := by
  induction chars using split.induct with
  | case1 => simp [split]
  | case2 char rest form count recognized ih =>
      rw [split, recognized, List.flatMap_cons, ih, List.cons_append, List.take_append_drop]

end Piece

end CoolLang
