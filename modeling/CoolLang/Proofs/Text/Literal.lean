import CoolLang.Text.Literal
import Mathlib.Data.Nat.Digits.Defs

/-!
What literals denote. A numeral stands for its decimal value, as far as 64 bits go
(`Text.integerLiteral_of_digits`), and the numeral that a number is written with is read back. The inside of
a string literal falls into units of one or two characters, each of which stands for one
(`Text.stringLiteral_of_units`); every text has a literal, which `Text.quote` spells.
-/

namespace CoolLang.Text

/-! ### Integers -/

theorem decimalValue_eq_ofDigitChars (digits : List Char) :
    decimalValue digits = Nat.ofDigitChars 10 digits 0 := by
  rw [Nat.ofDigitChars_eq_foldl]
  rfl

theorem decimalValue_toDigits (value : Nat) : decimalValue (Nat.toDigits 10 value) = value := by
  rw [decimalValue_eq_ofDigitChars, Nat.ofDigitChars_ten_toDigits]

theorem all_isDigit_toDigits (value : Nat) : (Nat.toDigits 10 value).all Char.isDigit = true := by
  rw [List.all_eq_true]
  intro digit member
  exact Nat.isDigit_of_mem_toDigits (Nat.zero_lt_succ 9) (Nat.le_refl 10) member

theorem naturalUpTo?_toDigits {limit value : Nat} (small : value ≤ limit) :
    naturalUpTo? limit (Nat.toDigits 10 value) = some value := by
  rw [naturalUpTo?, decimalValue_toDigits,
    if_pos ⟨Nat.toDigits_ne_nil, all_isDigit_toDigits value, small⟩]

/-- A numeral without a sign is read by its digits. -/
theorem integer?_of_digits {numeral : List Char} (digits : numeral.all Char.isDigit = true) :
    integer? numeral = (naturalUpTo? maxInteger numeral).map Int.ofNat := by
  unfold integer?
  split
  · simp [Char.isDigit] at digits
  · simp [Char.isDigit] at digits
  · rfl

theorem integerLiteral_toString {value : Nat} (small : value ≤ maxInteger) :
    integerLiteral (toString value) = value := by
  rw [integerLiteral, Nat.toString_eq_ofList_toDigits, String.toList_ofList,
    integer?_of_digits (all_isDigit_toDigits value), naturalUpTo?_toDigits small]
  rfl

/-- A numeral of any length denotes its decimal value, or the greatest number if that is less. -/
theorem integerLiteral_of_digits {lexeme : String} (some : lexeme.toList ≠ [])
    (digits : lexeme.toList.all Char.isDigit = true) :
    integerLiteral lexeme = min (decimalValue lexeme.toList) maxInteger := by
  rw [integerLiteral, integer?_of_digits digits, naturalUpTo?]
  by_cases small : decimalValue lexeme.toList ≤ maxInteger
  · rw [if_pos ⟨some, digits, small⟩, Nat.min_eq_left small]
    rfl
  · rw [if_neg fun fits => small fits.2.2, Nat.min_eq_right (by omega)]
    rfl

/-! ### The units of a string literal -/

/-- What a string literal is made of between its quotes. -/
inductive LiteralUnit where
  | plain (char : Char) (bare : char ≠ '"' ∧ char ≠ '\\' ∧ char ≠ '\n')
  | escape (char : Char)

namespace LiteralUnit

def spelling : LiteralUnit → List Char
  | plain char _ => [char]
  | escape char => ['\\', char]

/-- The letters that stand for control characters behind a backslash: line feed, tab, backspace and form
feed. -/
def controls : List (Char × Char) :=
  [('n', '\n'), ('t', '\t'), ('b', '\x08'), ('f', '\x0c')]

/-- The one character that a unit stands for, which is its own unless it is the escape of a control
character. -/
def value : LiteralUnit → Char
  | plain char _ => char
  | escape char => (controls.lookup char).getD char

theorem escapeValue_eq (char : Char) : escapeValue char = (controls.lookup char).getD char := by
  unfold escapeValue
  split
  · rfl
  · rfl
  · rfl
  · rfl
  · next notFeed notTab notBack notForm =>
      have unlisted : controls.lookup char = none := by
        rw [List.lookup_eq_none_iff]
        simp only [controls, List.forall_mem_cons, bne_iff_ne]
        exact ⟨notFeed, notTab, notBack, notForm, List.forall_mem_nil _⟩
      rw [unlisted, Option.getD_none]

/-- Units are read from left to right in one way. -/
theorem spelling_injective : {units others : List LiteralUnit} →
    units.flatMap spelling = others.flatMap spelling → units = others
  | [], [], _ => rfl
  | [], plain .. :: _, same => nomatch same
  | [], escape .. :: _, same => nomatch same
  | plain .. :: _, [], same => nomatch same
  | escape .. :: _, [], same => nomatch same
  | plain char bare :: _, escape .. :: _, same => absurd (List.cons.inj same).1 bare.2.1
  | escape .. :: _, plain char bare :: _, same => absurd (List.cons.inj same).1.symm bare.2.1
  | plain .. :: _, plain .. :: _, same => by
      obtain ⟨rfl, rest⟩ := List.cons.inj same
      rw [spelling_injective rest]
  | escape .. :: _, escape .. :: _, same => by
      obtain ⟨rfl, rest⟩ := List.cons.inj (List.cons.inj same).2
      rw [spelling_injective rest]

theorem unescape_units (units : List LiteralUnit) :
    unescape (units.flatMap spelling) = units.map value := by
  induction units with
  | nil => rfl
  | cons unit units ih =>
      rw [List.flatMap_cons, List.map_cons, ← ih]
      cases unit with
      | escape char => exact congrArg (· :: _) (escapeValue_eq char)
      | plain char bare =>
          rw [spelling, List.singleton_append, unescape]
          · rfl
          · exact fun _ _ isBackslash => absurd isBackslash bare.2.1
          · exact fun isBackslash => absurd isBackslash bare.2.1

end LiteralUnit

theorem unquote_quoted (inside : List Char) : unquote ('"' :: inside ++ ['"']) = inside := by
  rw [List.cons_append, unquote, List.getLast?_concat, if_pos rfl, List.dropLast_concat]

/-- A string literal loses its two quotes, and each unit between them is one character of its value. -/
theorem stringLiteral_of_units {lexeme : String} {units : List LiteralUnit}
    (spelled : lexeme.toList = '"' :: units.flatMap LiteralUnit.spelling ++ ['"']) :
    stringLiteral lexeme = String.ofList (units.map LiteralUnit.value) := by
  rw [stringLiteral, spelled, unquote_quoted, LiteralUnit.unescape_units]

/-! ### A literal for every text -/

/-- A character inside a literal. A backslash would change the meaning of these few letters, and does
no harm to any other character. -/
def quoteChar (char : Char) : List Char :=
  if char = 'n' ∨ char = 't' ∨ char = 'b' ∨ char = 'f' then [char] else ['\\', char]

/-- A literal for a text. -/
def quote (value : String) : String :=
  String.ofList ('"' :: value.toList.flatMap quoteChar ++ ['"'])

theorem unescape_quoteChar (char : Char) (rest : List Char) :
    unescape (quoteChar char ++ rest) = char :: unescape rest := by
  unfold quoteChar
  split
  · rename_i letter
    obtain rfl | rfl | rfl | rfl := letter <;> rfl
  · rename_i other
    have plain : escapeValue char = char := by
      unfold escapeValue
      split <;> simp_all
    rw [List.cons_append, List.singleton_append, unescape, plain]

theorem unescape_flatMap_quoteChar (chars : List Char) :
    unescape (chars.flatMap quoteChar) = chars := by
  induction chars with
  | nil => rfl
  | cons char chars ih => rw [List.flatMap_cons, unescape_quoteChar, ih]

theorem stringLiteral_quote (value : String) : stringLiteral (quote value) = value := by
  rw [stringLiteral, quote, String.toList_ofList, unquote_quoted, unescape_flatMap_quoteChar,
    String.ofList_toList]

end CoolLang.Text
