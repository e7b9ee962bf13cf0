/-!
What literals stand for. A decimal number of 64 bits is read by its digits; a signed one may start with a
sign. What has no digits, other characters or a value outside the signed 64-bit range is no such number.
The lexeme of a string spells its value between two quotes, with escapes of a backslash and one more
character.
-/

namespace CoolLang.Text

/-- The greatest signed number of 64 bits. -/
def maxInteger : Nat := 0x7fffffffffffffff

def digitValue (digit : Char) : Nat :=
  digit.toNat - '0'.toNat

/-- The value of a list of decimal digits, the most significant first. -/
def decimalValue (digits : List Char) : Nat :=
  digits.foldl (fun value digit => 10 * value + digitValue digit) 0

/-- The value of a nonempty numeral of at most `limit`. -/
def naturalUpTo? (limit : Nat) (numeral : List Char) : Option Nat :=
  if numeral ≠ [] ∧ numeral.all Char.isDigit ∧ decimalValue numeral ≤ limit then
    some (decimalValue numeral)
  else
    none

/-- Reads a signed number of 64 bits, whose range reaches one further below zero than above. -/
def integer? : List Char → Option Int
  | '+' :: numeral => (naturalUpTo? maxInteger numeral).map Int.ofNat
  | '-' :: numeral => (naturalUpTo? (maxInteger + 1) numeral).map fun value => -Int.ofNat value
  | numeral => (naturalUpTo? maxInteger numeral).map Int.ofNat

/-- The value that an integer literal stands for; the greatest one where it cannot be read. -/
def integerLiteral (lexeme : String) : Int :=
  (integer? lexeme.toList).getD maxInteger

/-- The character that a backslash and `char` stand for. -/
def escapeValue : Char → Char
  | 'n' => '\n'
  | 't' => '\t'
  | 'b' => '\x08'
  | 'f' => '\x0c'
  | char => char

/-- Resolves the escapes; a backslash at the very end stands for nothing. -/
def unescape : List Char → List Char
  | '\\' :: char :: rest => escapeValue char :: unescape rest
  | ['\\'] => []
  | char :: rest => char :: unescape rest
  | [] => []

/-- Removes a quote from each end, if there is one at both. -/
def unquote (lexeme : List Char) : List Char :=
  match lexeme with
  | '"' :: rest => if rest.getLast? = some '"' then rest.dropLast else lexeme
  | _ => lexeme

/-- The value that a string literal stands for. -/
def stringLiteral (lexeme : String) : String :=
  String.ofList (unescape (unquote lexeme.toList))

end CoolLang.Text
