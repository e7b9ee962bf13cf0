import CoolLang.Source.Position
import Mathlib.Algebra.GroupWithZero.Nat

/-!
Byte offsets in a text. A scanner that cuts slices out of a text knows where a slice begins by its offset
in bytes; a line index, the offsets at which lines begin, turns such an offset into a position.
-/

namespace CoolLang

/-- The bytes that characters take. -/
def byteLength (chars : List Char) : Nat :=
  (chars.map Char.utf8Size).sum

/-- The characters before a byte offset. -/
def takeBytes : Nat → List Char → List Char
  | _, [] => []
  | bytes, char :: rest =>
      if char.utf8Size ≤ bytes then char :: takeBytes (bytes - char.utf8Size) rest else []

/-- The characters from a byte offset on. -/
def dropBytes : Nat → List Char → List Char
  | _, [] => []
  | bytes, char :: rest =>
      if char.utf8Size ≤ bytes then dropBytes (bytes - char.utf8Size) rest else char :: rest

structure LineIndex where
  source : List Char
  /-- The offset of each line, ascending. -/
  starts : List Nat

namespace LineIndex

/-- The offsets right after the line feeds of a stretch of text that begins at `offset`. -/
def startsAfter : Nat → List Char → List Nat
  | _, [] => []
  | offset, char :: rest =>
      let next := offset + char.utf8Size
      if char = '\n' then next :: startsAfter next rest else startsAfter next rest

def ofSource (source : List Char) : LineIndex :=
  ⟨source, 0 :: startsAfter 0 source⟩

/-- The line that an offset is in, counted from zero: the one that begins there, or else the last of
those that begin before. -/
def lineOf (lines : LineIndex) (offset : Nat) : Nat :=
  match lines.starts.idxOf? offset with
  | some line => line
  | none => (lines.starts.takeWhile (· < offset)).length - 1

def position (lines : LineIndex) (offset : Nat) : Position :=
  let line := lines.lineOf offset
  let start := lines.starts[line]?.getD 0
  ⟨line + 1, (takeBytes (offset - start) (dropBytes start lines.source)).length + 1⟩

end LineIndex

end CoolLang
