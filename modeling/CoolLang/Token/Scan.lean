import CoolLang.Source.Diagnostic
import CoolLang.Text.Literal
import CoolLang.Text.Escape
import CoolLang.Token.Piece

/-!
Scanning: the tokens of a source text with their positions, closed by an end-of-input token, and a
diagnostic for each piece that is at fault. Faults never stop the scan.
-/

namespace CoolLang

namespace Piece

/-- The token that a piece at a position is, if it is one. -/
def token? (position : Position) (piece : Piece) : Option Token :=
  match piece.form with
  | .token kind => some ⟨kind, String.ofList piece.text, position⟩
  | _ => none

/-- What is wrong with a piece: an illegal character, a comment that is never closed, or an integer
beyond 64 bits, which still is a token. -/
def fault? (piece : Piece) : Option String :=
  match piece.form with
  | .illegal => some <|
      "Illegal character '" ++ String.join (piece.text.map Text.escapeChar) ++ "'."
  | .openComment => some "EOF in comment."
  | .token .integer =>
      if Text.decimalValue piece.text ≤ Text.maxInteger then none
      else some ("Integer literal " ++ String.ofList piece.text ++ " is out of range.")
  | _ => none

/-- The pieces with their positions, the first of them at `position`. -/
def place (position : Position) : List Piece → List (Position × Piece)
  | [] => []
  | piece :: pieces => (position, piece) :: place (position.after piece.text) pieces

end Piece

/-- What scanning a text yields. -/
structure Scan where
  /-- The tokens in order; the last one, and no other, is the end of input. -/
  tokens : List Token
  errors : List Diagnostic

/-- The end of input, spelled as its terminal. -/
def Token.endOfInput (position : Position) : Token :=
  ⟨.endOfInput, TokenKind.endOfInput.name, position⟩

def Scan.ofSource (source : String) : Scan :=
  let pieces := Piece.place Position.first (Piece.split source.toList)
  { tokens := pieces.filterMap (fun (position, piece) => piece.token? position) ++
      [Token.endOfInput (Position.first.after source.toList)]
    errors := pieces.filterMap fun (position, piece) =>
      piece.fault?.map fun message => ⟨position, .lexical message⟩ }

end CoolLang
