/-!
Positions in a source text. Lines and columns count from one; a line ends at a line feed only, and a
column is one character.
-/

namespace CoolLang

structure Position where
  line : Nat
  column : Nat
deriving DecidableEq, Inhabited

namespace Position

/-- The position of the first character of a text. -/
def first : Position := ⟨1, 1⟩

/-- The position of the built-in declarations, which no text contains. -/
def builtin : Position := ⟨0, 0⟩

/-- The position right after a character at `position`. -/
def next (position : Position) (char : Char) : Position :=
  if char = '\n' then ⟨position.line + 1, 1⟩ else ⟨position.line, position.column + 1⟩

/-- The position right after a stretch of characters that begins at `position`. -/
def after (position : Position) (chars : List Char) : Position :=
  chars.foldl next position

/-- The position right behind the characters at the front of a text: its line counts the line feeds
among them, and its column counts the characters after the last of these. -/
def behind (front : List Char) : Position :=
  ⟨1 + front.count '\n', 1 + (front.reverse.takeWhile (· ≠ '\n')).length⟩

/-- The order in which positions stand in a text. -/
def Before (first second : Position) : Prop :=
  first.line < second.line ∨ first.line = second.line ∧ first.column < second.column

def text (position : Position) : String :=
  "Line " ++ toString position.line ++ ", Column " ++ toString position.column

theorem after_append (position : Position) (front back : List Char) :
    position.after (front ++ back) = (position.after front).after back :=
  List.foldl_append

end Position

end CoolLang
