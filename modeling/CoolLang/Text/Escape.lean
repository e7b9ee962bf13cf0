import CoolLang.Text.GraphemeExtend
import CoolLang.Text.Printable

/-!
The visible form of a character in a message: short escapes for the usual controls, for quotes and for
the backslash, the code point for whatever would not show or would merge with its neighbour, and the
character itself otherwise.
-/

namespace CoolLang.Text

/-- The code point in lower-case hexadecimal digits without leading zeros. -/
def hexText (value : Nat) : String :=
  String.ofList (Nat.toDigits 16 value)

/-- A backslash, `u` and the code point in braces. -/
def codePointEscape (char : Char) : String :=
  "\\u\x7b" ++ hexText char.toNat ++ "\x7d"

/-- The fillers of Hangul are letters that show nothing. -/
def isFiller (char : Char) : Bool :=
  char = '\u115f' || char = '\u1160' || char = '\u3164' || char = '\uffa0'

/-- The halfwidth sound marks of Katakana extend the character before them, but in a place of their
own. -/
def isHalfwidthSoundMark (char : Char) : Bool :=
  char = '\uff9e' || char = '\uff9f'

/-- Whether a character shows by itself. -/
def isVisible (char : Char) : Bool :=
  isPrintable char && !isFiller char && (!isGraphemeExtend char || isHalfwidthSoundMark char)

def escapeChar (char : Char) : String :=
  match char with
  | '\x00' => "\\0"
  | '\t' => "\\t"
  | '\r' => "\\r"
  | '\n' => "\\n"
  | '\\' => "\\\\"
  | '"' => "\\\""
  | '\'' => "\\'"
  | _ =>
      if isVisible char then char.toString else codePointEscape char

end CoolLang.Text
