import CoolLang.Proofs.Token.Comment
import CoolLang.Token.Pattern
import Mathlib

/-!
Every piece of a text is the longest match of a pattern there (`Piece.fits_recognize`), and there is but
one such piece (`Piece.Fits.unique`), so a text falls into pieces in one way (`Piece.cut_iff`).
-/

namespace CoolLang

variable {chars text rest more : List Char} {char : Char} {pattern : Pattern}

/-! ### Which patterns begin with which characters -/

/-- The characters that signs begin with. -/
private def signChars : List Char :=
  ['\x7b', '\x7d', '(', ')', ':', ';', ',', '.', '@', '+', '-', '*', '/', '~', '<', '=']

private theorem sign_begins {kind : TokenKind} (sign : kind ∈ TokenKind.signs) :
    ∃ first more, kind.name.toList = first :: more ∧ first ∈ signChars := by
  fin_cases sign <;> exact ⟨_, _, rfl, by decide⟩

private theorem sign_injective : ∀ first ∈ TokenKind.signs, ∀ second ∈ TokenKind.signs,
    first.name.toList = second.name.toList → first = second := by
  decide

private theorem isBlank_iff : Piece.isBlank char ↔ char ∈ [' ', '\t', '\r', '\n', '\x0c', '\x0b'] := by
  simp [Piece.isBlank, or_assoc]

private theorem blank_apart (blank : Piece.isBlank char) :
    ¬ char.isAlpha ∧ ¬ char.isDigit ∧ char ≠ '"' ∧ char ∉ signChars := by
  have apart : [' ', '\t', '\r', '\n', '\x0c', '\x0b'].all fun first =>
      decide (¬ first.isAlpha ∧ ¬ first.isDigit ∧ first ≠ '"' ∧ first ∉ signChars) := by
    decide
  exact of_decide_eq_true (List.all_eq_true.mp apart char (isBlank_iff.mp blank))

private theorem sign_apart (sign : char ∈ signChars) :
    ¬ char.isAlpha ∧ ¬ char.isDigit ∧ char ≠ '"' := by
  have apart : signChars.all fun first =>
      decide (¬ first.isAlpha ∧ ¬ first.isDigit ∧ first ≠ '"') := by
    decide
  exact of_decide_eq_true (List.all_eq_true.mp apart char sign)

private theorem quote_apart : ¬ '"'.isAlpha ∧ ¬ '"'.isDigit := by
  decide

private theorem not_isDigit_of_isAlpha (alpha : char.isAlpha) : ¬ char.isDigit := by
  simp only [Char.isAlpha, Char.isUpper, Char.isLower, Char.isDigit, Bool.or_eq_true, Bool.and_eq_true,
    decide_eq_true_eq, ge_iff_le, UInt32.le_iff_toNat_le] at alpha ⊢
  have upper : 'A'.val.toNat = 65 := rfl
  have lower : 'a'.val.toNat = 97 := rfl
  have nine : '9'.val.toNat = 57 := rfl
  omega

/-- What a match can begin with. -/
private inductive Leads : Pattern → Char → Prop where
  | word {first : Char} : first.isAlpha → Leads .word first
  | integer {first : Char} : first.isDigit → Leads .integer first
  | string : Leads .string '"'
  | sign {kind : TokenKind} {first : Char} : first ∈ signChars → Leads (.sign kind) first
  | commentOpening : Leads .commentOpening '('
  | blank {first : Char} : Piece.isBlank first → Leads .skipped first
  | lineComment : Leads .skipped '-'

private theorem Pattern.Matches.leads (matched : pattern.Matches text) :
    ∃ first more, text = first :: more ∧ Leads pattern first := by
  cases pattern with
  | word =>
      obtain ⟨first, more, rfl, alpha, _⟩ := matched
      exact ⟨first, more, rfl, .word alpha⟩
  | integer =>
      obtain ⟨some, digits⟩ := matched
      obtain ⟨first, more, rfl⟩ := List.exists_cons_of_ne_nil some
      exact ⟨first, more, rfl, .integer (List.all_eq_true.mp digits first List.mem_cons_self)⟩
  | string =>
      obtain ⟨body, rfl, _⟩ := matched
      exact ⟨_, _, rfl, .string⟩
  | sign kind =>
      obtain ⟨sign, rfl⟩ := matched
      obtain ⟨first, more, spelled, isSign⟩ := sign_begins sign
      exact ⟨first, more, spelled, .sign isSign⟩
  | commentOpening =>
      obtain rfl := matched
      exact ⟨_, _, rfl, .commentOpening⟩
  | skipped =>
      obtain ⟨some, blanks⟩ | ⟨more, rfl, _⟩ := matched
      · obtain ⟨first, more, rfl⟩ := List.exists_cons_of_ne_nil some
        exact ⟨first, more, rfl, .blank (List.all_eq_true.mp blanks first List.mem_cons_self)⟩
      · exact ⟨_, _, rfl, .lineComment⟩

/-- A pattern that is matched at the front of `char :: rest` begins with `char`. -/
private theorem leads_of_front (front : text <+: char :: rest) (matched : pattern.Matches text) :
    ∃ more, text = char :: more ∧ more <+: rest ∧ Leads pattern char := by
  obtain ⟨first, more, rfl, leads⟩ := matched.leads
  obtain ⟨rfl, inside⟩ := List.cons_prefix_cons.mp front
  exact ⟨more, rfl, inside, leads⟩

private theorem Leads.of_isBlank (blank : Piece.isBlank char) (leads : Leads pattern char) :
    pattern = .skipped := by
  obtain ⟨notAlpha, notDigit, notQuote, notSign⟩ := blank_apart blank
  cases leads with
  | word alpha => exact absurd alpha notAlpha
  | integer digit => exact absurd digit notDigit
  | string => exact absurd rfl notQuote
  | sign sign => exact absurd sign notSign
  | commentOpening => exact absurd (by decide) notSign
  | blank | lineComment => rfl

private theorem Leads.of_isAlpha (alpha : char.isAlpha) (leads : Leads pattern char) :
    pattern = .word := by
  cases leads with
  | word => rfl
  | integer digit => exact absurd digit (not_isDigit_of_isAlpha alpha)
  | string => exact absurd alpha quote_apart.1
  | sign sign => exact absurd alpha (sign_apart sign).1
  | commentOpening | lineComment => exact absurd alpha (by decide)
  | blank blank => exact absurd alpha (blank_apart blank).1

private theorem Leads.of_isDigit (digit : char.isDigit) (leads : Leads pattern char) :
    pattern = .integer := by
  cases leads with
  | integer => rfl
  | word alpha => exact absurd digit (not_isDigit_of_isAlpha alpha)
  | string => exact absurd digit quote_apart.2
  | sign sign => exact absurd digit (sign_apart sign).2.1
  | commentOpening | lineComment => exact absurd digit (by decide)
  | blank blank => exact absurd digit (blank_apart blank).2.1

private theorem Leads.of_quote (leads : Leads pattern '"') : pattern = .string := by
  cases leads with
  | string => rfl
  | word alpha => exact absurd alpha quote_apart.1
  | integer digit => exact absurd digit quote_apart.2
  | sign sign => exact absurd rfl (sign_apart sign).2.2
  | blank blank => exact absurd rfl (blank_apart blank).2.2.1

/-- The pairs of characters that begin a sign of two characters or a comment. -/
private def doubles : List (Char × Char) :=
  [('(', '*'), ('-', '-'), ('<', '-'), ('<', '='), ('=', '>')]

/-- A match that begins with a sign goes on with a pair or ends; only a line comment goes on further. -/
private theorem more_of_sign (sign : char ∈ signChars) (matched : pattern.Matches (char :: more)) :
    more = [] ∨ ∃ second later, more = second :: later ∧ (char, second) ∈ doubles ∧
      (later = [] ∨ char = '-' ∧ '\n' ∉ later) := by
  obtain ⟨notAlpha, notDigit, notQuote⟩ := sign_apart sign
  cases pattern with
  | word =>
      obtain ⟨_, _, same, alpha, _⟩ := matched
      exact absurd ((List.cons.inj same).1 ▸ alpha) notAlpha
  | integer =>
      exact absurd (List.all_eq_true.mp matched.2 char List.mem_cons_self) notDigit
  | string =>
      obtain ⟨_, same, _⟩ := matched
      exact absurd (List.cons.inj same).1 notQuote
  | sign kind =>
      obtain ⟨isSign, spelled⟩ := matched
      fin_cases isSign <;> obtain ⟨rfl, rfl⟩ := List.cons.inj spelled <;>
        first
          | exact Or.inl rfl
          | exact Or.inr ⟨_, _, rfl, by decide, Or.inl rfl⟩
  | commentOpening =>
      obtain ⟨rfl, rfl⟩ := List.cons.inj matched
      exact Or.inr ⟨_, _, rfl, by decide, Or.inl rfl⟩
  | skipped =>
      obtain ⟨_, blanks⟩ | ⟨later, same, line⟩ := matched
      · have blank := List.all_eq_true.mp blanks char List.mem_cons_self
        exact absurd sign (blank_apart blank).2.2.2
      · obtain ⟨rfl, rfl⟩ := List.cons.inj same
        exact Or.inr ⟨_, _, rfl, by decide, Or.inr ⟨rfl, line⟩⟩

/-! ### Longest matches -/

private theorem take_runLength (test : Char → Bool) (chars : List Char) :
    chars.take (Piece.runLength test chars) = chars.takeWhile test :=
  (List.prefix_iff_eq_take.mp (List.takeWhile_prefix test)).symm

private theorem length_le_runLength (test : Char → Bool) (front : more <+: rest)
    (passed : more.all test) : more.length ≤ Piece.runLength test rest := by
  obtain ⟨back, rfl⟩ := front
  rw [Piece.runLength, List.takeWhile_append_of_pos (List.all_eq_true.mp passed)]
  simp

namespace Pattern

/-- A run of characters that pass a test is the longest match of a pattern that matches such runs only,
where no other pattern begins. -/
private theorem longest_run {test : Char → Bool}
    (only : ∀ {other}, Leads other char → other = pattern)
    (matched : pattern.Matches (char :: rest.takeWhile test))
    (passed : ∀ {more}, pattern.Matches (char :: more) → more.all test) :
    pattern.Longest (char :: rest) (char :: rest.take (Piece.runLength test rest)) := by
  rw [take_runLength]
  refine ⟨List.cons_prefix_cons.mpr ⟨rfl, List.takeWhile_prefix test⟩, matched, ?_⟩
  intro other longer front longerMatched
  obtain ⟨more, rfl, inside, leads⟩ := leads_of_front front longerMatched
  obtain rfl := only leads
  exact Nat.succ_le_succ (length_le_runLength _ inside (passed longerMatched))

private theorem longest_blanks (blank : Piece.isBlank char) :
    skipped.Longest (char :: rest) (char :: rest.take (Piece.runLength Piece.isBlank rest)) := by
  apply longest_run (Leads.of_isBlank blank)
  · refine Or.inl ⟨by simp, ?_⟩
    rw [List.all_cons, blank, Bool.true_and, List.all_takeWhile]
  · rintro more (⟨_, blanks⟩ | ⟨_, same, _⟩)
    · rw [List.all_cons, Bool.and_eq_true] at blanks
      exact blanks.2
    · have dash := (List.cons.inj same).1 ▸ blank
      exact absurd dash (by decide)

private theorem longest_word (alpha : char.isAlpha) :
    word.Longest (char :: rest) (char :: rest.take (Piece.runLength Piece.isWordChar rest)) := by
  apply longest_run (Leads.of_isAlpha alpha)
  · exact ⟨char, _, rfl, alpha, List.all_takeWhile⟩
  · rintro more ⟨_, _, same, _, passed⟩
    rw [(List.cons.inj same).2]
    exact passed

private theorem longest_integer (digit : char.isDigit) :
    integer.Longest (char :: rest) (char :: rest.take (Piece.runLength Char.isDigit rest)) := by
  apply longest_run (Leads.of_isDigit digit)
  · refine ⟨by simp, ?_⟩
    rw [List.all_cons, digit, Bool.true_and, List.all_takeWhile]
  · rintro more ⟨_, digits⟩
    rw [List.all_cons, Bool.and_eq_true] at digits
    exact digits.2

/-- A sign is the longest match if no pair of characters begins there, or if it is that pair. -/
private theorem longest_sign {last : List Char} (leads : char ∈ signChars)
    (matched : pattern.Matches (char :: last)) (front : last <+: rest)
    (whole : ∀ second ∈ rest.head?, (char, second) ∈ doubles → last ≠ [] ∧ char ≠ '-') :
    pattern.Longest (char :: rest) (char :: last) := by
  refine ⟨List.cons_prefix_cons.mpr ⟨rfl, front⟩, matched, ?_⟩
  intro other longer inside longerMatched
  obtain ⟨more, rfl, ⟨back, rfl⟩, _⟩ := leads_of_front inside longerMatched
  rcases more_of_sign leads longerMatched with rfl | ⟨second, later, rfl, double, ends⟩
  · simp
  · obtain ⟨isPair, notDash⟩ := whole second rfl double
    obtain rfl := ends.resolve_right fun dash => notDash dash.1
    have := List.length_pos_iff.mpr isPair
    simp only [List.length_cons, List.length_nil]
    omega

private theorem longest_lineComment :
    skipped.Longest ('-' :: '-' :: rest)
      ('-' :: '-' :: rest.take (Piece.runLength (· ≠ '\n') rest)) := by
  rw [take_runLength]
  refine ⟨?_, Or.inr ⟨_, rfl, ?_⟩, ?_⟩
  · exact (List.prefix_append_right_inj ['-', '-']).mpr (List.takeWhile_prefix _)
  · intro feed
    have passed := List.all_eq_true.mp (List.all_takeWhile (l := rest)) _ feed
    simp at passed
  · intro other longer inside longerMatched
    obtain ⟨more, rfl, front, leads⟩ := leads_of_front inside longerMatched
    have sign : '-' ∈ signChars := by decide
    rcases more_of_sign sign longerMatched with rfl | ⟨second, later, rfl, _, ends⟩
    · simp
    · have line : '\n' ∉ later := by
        rcases ends with rfl | ⟨_, line⟩
        · simp
        · exact line
      have short := length_le_runLength (· ≠ '\n') (List.cons_prefix_cons.mp front).2
        (List.all_eq_true.mpr fun next member => by
          have : next ≠ '\n' := fun feed => line (feed ▸ member)
          simpa using this)
      simp only [List.length_cons]
      exact Nat.succ_le_succ (Nat.succ_le_succ short)

end Pattern

/-! ### String literals -/

namespace StringBody

theorem stringEnd?_append {body : List Char} (valid : StringBody body) (back : List Char) (count : Nat) :
    Piece.stringEnd? count (body ++ '"' :: back) = some (count + body.length + 1) := by
  induction valid generalizing count with
  | empty => rw [List.nil_append, Piece.stringEnd?]; rfl
  | @plain char rest notQuote notBackslash notFeed _ ih =>
      rw [List.cons_append, Piece.stringEnd?, ih, List.length_cons]
      · congr 1
        omega
      · exact notQuote
      · intro _ _ isBackslash
        exact absurd isBackslash notBackslash
      · exact notFeed
  | @escaped char rest _ ih =>
      rw [List.cons_append, List.cons_append, Piece.stringEnd?, ih]
      simp only [List.length_cons]
      congr 1
      omega

theorem of_stringEnd? {count stop : Nat} (found : Piece.stringEnd? count chars = some stop) :
    ∃ body back, chars = body ++ '"' :: back ∧ StringBody body ∧ stop = count + body.length + 1 := by
  fun_induction Piece.stringEnd? count chars with
  | case1 count back => exact ⟨[], back, rfl, .empty, (Option.some.inj found).symm⟩
  | case2 count char rest ih =>
      obtain ⟨body, back, rfl, valid, rfl⟩ := ih found
      refine ⟨'\\' :: char :: body, back, rfl, .escaped valid, ?_⟩
      simp only [List.length_cons]
      omega
  | case3 => cases found
  | case4 count char rest notQuote notEscape notFeed ih =>
      obtain ⟨body, back, rfl, valid, rfl⟩ := ih found
      refine ⟨char :: body, back, rfl, .plain notQuote ?_ notFeed valid, ?_⟩
      · -- a backslash would escape what follows, and something does follow
        intro isBackslash
        obtain ⟨next, later, begins⟩ := List.exists_cons_of_ne_nil (l := body ++ '"' :: back) (by simp)
        exact notEscape next later isBackslash begins
      · simp only [List.length_cons]
        omega
  | case5 => cases found

end StringBody

private theorem longest_string {body : List Char} (valid : StringBody body) (back : List Char) :
    Pattern.string.Longest ('"' :: (body ++ '"' :: back)) ('"' :: (body ++ ['"'])) := by
  refine ⟨⟨back, by simp⟩, ⟨body, rfl, valid⟩, ?_⟩
  intro other longer inside longerMatched
  obtain ⟨more, rfl, front, leads⟩ := leads_of_front inside longerMatched
  obtain rfl := leads.of_quote
  obtain ⟨body', same, valid'⟩ := longerMatched
  obtain ⟨back', whole⟩ := front
  -- both literals end where the text that they are in does
  have first := valid.stringEnd?_append back 0
  have second := valid'.stringEnd?_append back' 0
  rw [← whole, (List.cons.inj same).2, List.append_assoc, List.singleton_append, second] at first
  have := Option.some.inj first
  rw [same]
  simp only [List.length_cons, List.length_append, List.length_nil]
  omega

/-! ### Tokens before blanks -/

private theorem blank_not_isWordChar (blank : Piece.isBlank char) : ¬ Piece.isWordChar char := by
  rw [isBlank_iff] at blank
  fin_cases blank <;> decide

private theorem blank_not_double {first : Char} (blank : Piece.isBlank char) : (first, char) ∉ doubles := by
  rw [isBlank_iff] at blank
  intro double
  fin_cases double <;> exact absurd blank (by decide)

/-- A run that a blank or the end of the text ends. -/
private theorem take_run_before_blank {test : Char → Bool} {back : List Char} (passed : rest.all test)
    (fails : ∀ {blank}, Piece.isBlank blank → ¬ test blank)
    (apart : ∀ next ∈ back.head?, Piece.isBlank next) :
    (rest ++ back).take (Piece.runLength test (rest ++ back)) = rest := by
  have stops : back.takeWhile test = [] := by
    cases back with
    | nil => rfl
    | cons next back => exact List.takeWhile_cons_of_neg (fails (apart next rfl))
  rw [take_runLength, List.takeWhile_append_of_pos (List.all_eq_true.mp passed), stops, List.append_nil]

namespace Pattern

/-- No sign of two characters begins with a dash. -/
private theorem dash_alone : ∀ kind ∈ TokenKind.signs, kind.name.toList.head? = some '-' →
    kind.name.toList.tail = [] := by
  decide

/-- What is a token remains the longest match if the text ends right behind it or goes on with a blank. -/
theorem Matches.longest_before_blank {back : List Char} (matched : pattern.Matches text)
    (isToken : (pattern.kind? text).isSome) (apart : ∀ next ∈ back.head?, Piece.isBlank next) :
    pattern.Longest (text ++ back) text := by
  cases pattern with
  | word =>
      obtain ⟨first, rest, rfl, alpha, passed⟩ := matched
      have longest := @longest_word (rest ++ back) _ alpha
      rwa [take_run_before_blank passed blank_not_isWordChar apart] at longest
  | integer =>
      obtain ⟨some, digits⟩ := matched
      obtain ⟨first, rest, rfl⟩ := List.exists_cons_of_ne_nil some
      rw [List.all_cons, Bool.and_eq_true] at digits
      have longest := @longest_integer (rest ++ back) _ digits.1
      rwa [take_run_before_blank digits.2 (fun blank => (blank_apart blank).2.1) apart] at longest
  | string =>
      obtain ⟨body, rfl, valid⟩ := matched
      have longest := longest_string valid back
      rwa [List.cons_append, List.append_assoc, List.singleton_append]
  | sign kind =>
      obtain ⟨sign, rfl⟩ := matched
      obtain ⟨first, more, spelled, leads⟩ := sign_begins sign
      rw [spelled]
      refine longest_sign leads ⟨sign, spelled.symm⟩ (List.prefix_append more back) ?_
      intro second head double
      cases more with
      | nil => exact absurd double (blank_not_double (apart second head))
      | cons =>
          refine ⟨List.cons_ne_nil _ _, ?_⟩
          rintro rfl
          have alone := dash_alone kind sign (by rw [spelled]; rfl)
          rw [spelled] at alone
          cases alone
  | commentOpening | skipped => cases isToken

/-- No token begins with a blank. -/
theorem Matches.exists_not_blank (matched : pattern.Matches text)
    (isToken : (pattern.kind? text).isSome) :
    ∃ first more, text = first :: more ∧ ¬ Piece.isBlank first := by
  obtain ⟨first, more, rfl, leads⟩ := matched.leads
  refine ⟨first, more, rfl, fun blank => ?_⟩
  obtain rfl := leads.of_isBlank blank
  cases isToken

end Pattern

/-! ### Pieces -/

namespace Piece

private theorem ofPair?_of_not_double {second : Char} (single : (char, second) ∉ doubles) :
    ofPair? char second rest = none := by
  unfold ofPair?
  split <;> first | rfl | exact absurd (by decide) single

private theorem ofTwo?_of_not_double (single : ∀ second ∈ rest.head?, (char, second) ∉ doubles) :
    ofTwo? char rest = none := by
  cases rest with
  | nil => rfl
  | cons second rest => rw [ofTwo?, ofPair?_of_not_double (single second rfl), Option.map_none]

private theorem recognize_rest (char : Char) (rest : List Char) (notBlank : ¬ isBlank char)
    (notAlpha : ¬ char.isAlpha) (notDigit : ¬ char.isDigit) (notQuote : char ≠ '"') :
    (∀ recognized, ofTwo? char rest = some recognized → recognize char rest = recognized) ∧
    (∀ kind, ofTwo? char rest = none → ofChar? char = some kind →
      recognize char rest = (.token kind, 0)) ∧
    (ofTwo? char rest = none → ofChar? char = none → recognize char rest = (.illegal, 0)) := by
  rw [recognize, if_neg notBlank, if_neg notAlpha, if_neg notDigit, if_neg notQuote]
  refine ⟨fun recognized two => ?_, fun kind two one => ?_, fun two one => ?_⟩
  · rw [two]
  · rw [two, one]
  · rw [two, one]

/-- A comment that begins here is closed, or else it takes the rest of the text. -/
private theorem fits_comment :
    Fits ('(' :: '*' :: rest)
      ⟨(recognize '(' ('*' :: rest)).1,
        '(' :: ('*' :: rest).take (recognize '(' ('*' :: rest)).2⟩ := by
  have opening : Pattern.commentOpening.Longest ('(' :: '*' :: rest) ['(', '*'] :=
    Pattern.longest_sign (by decide) rfl ⟨rest, rfl⟩ fun _ _ _ => ⟨by simp, by decide⟩
  have recognized := (recognize_rest '(' ('*' :: rest) (by decide) (by decide) (by decide)
    (by decide)).1
  cases ends : commentEnd? 1 0 rest with
  | some stop =>
      rw [recognized (.blockComment, stop + 1) (by rw [ofTwo?, ofPair?, ends]; rfl)]
      obtain ⟨body, ⟨back, rfl⟩, closes, rfl⟩ := (commentEnd?_eq_some_iff Nat.one_pos).mp ends
      simp only [Nat.zero_add, List.take_succ_cons, List.take_left]
      exact .blockComment opening ⟨back, rfl⟩ closes
  | none =>
      rw [recognized (.openComment, rest.length + 1) (by rw [ofTwo?, ofPair?, ends]; rfl)]
      simp only [List.take_succ_cons, List.take_length]
      exact .openComment opening rfl ((commentEnd?_eq_none_iff Nat.one_pos).mp ends)

private theorem fits_sign (leads : char ∈ signChars) :
    Fits (char :: rest) ⟨(recognize char rest).1, char :: rest.take (recognize char rest).2⟩ := by
  obtain ⟨notAlpha, notDigit, notQuote⟩ := sign_apart leads
  have notBlank : ¬ isBlank char := fun blank => (blank_apart blank).2.2.2 leads
  obtain ⟨two, one, _⟩ := recognize_rest char rest notBlank notAlpha notDigit notQuote
  by_cases double : ∃ second ∈ rest.head?, (char, second) ∈ doubles
  · obtain ⟨second, head, double⟩ := double
    obtain ⟨rest, rfl⟩ : ∃ later, rest = second :: later := by
      cases rest with
      | nil => cases head
      | cons first later => exact ⟨later, by rw [Option.some.inj head]⟩
    have pair (kind : TokenKind) (sign : kind ∈ TokenKind.signs)
        (spelled : [char, second] = kind.name.toList) (notDash : char ≠ '-') :
        (Pattern.sign kind).Longest (char :: second :: rest) [char, second] :=
      Pattern.longest_sign leads ⟨sign, spelled⟩ ⟨rest, rfl⟩ fun _ _ _ => ⟨by simp, notDash⟩
    fin_cases double
    · exact fits_comment
    · rw [two _ rfl]
      exact .lineComment Pattern.longest_lineComment
    · rw [two _ rfl]
      exact .token (pair .assign (by decide) rfl (by decide)) rfl
    · rw [two _ rfl]
      exact .token (pair .lessEqual (by decide) rfl (by decide)) rfl
    · rw [two _ rfl]
      exact .token (pair .arrow (by decide) rfl (by decide)) rfl
  · have single : ∀ second ∈ rest.head?, (char, second) ∉ doubles :=
      fun second head isDouble => double ⟨second, head, isDouble⟩
    obtain ⟨kind, isKind, sign, spelled⟩ : ∃ kind, ofChar? char = some kind ∧
        kind ∈ TokenKind.signs ∧ [char] = kind.name.toList := by
      fin_cases leads <;> exact ⟨_, rfl, by decide, rfl⟩
    rw [one kind (ofTwo?_of_not_double single) isKind]
    have longest : (Pattern.sign kind).Longest (char :: rest) [char] :=
      Pattern.longest_sign leads ⟨sign, spelled⟩ List.nil_prefix fun second head isDouble =>
        absurd isDouble (single second head)
    exact .token longest rfl

/-- A quote begins a string that ends, or else it is the front of nothing. -/
private theorem fits_quote :
    Fits ('"' :: rest) ⟨(recognize '"' rest).1, '"' :: rest.take (recognize '"' rest).2⟩ := by
  rw [recognize, if_neg (by decide), if_neg (by decide), if_neg (by decide), if_pos rfl]
  cases found : stringEnd? 0 rest with
  | some stop =>
      obtain ⟨body, back, rfl, valid, rfl⟩ := StringBody.of_stringEnd? found
      have whole : (body ++ '"' :: back).take (0 + body.length + 1) = body ++ ['"'] := by
        rw [Nat.zero_add, List.take_length_add_append]
        rfl
      dsimp only
      rw [whole]
      exact .token (longest_string valid back) rfl
  | none =>
      refine .illegal rfl fun pattern text front matched => ?_
      obtain ⟨more, rfl, inside, leads⟩ := leads_of_front front matched
      obtain rfl := leads.of_quote
      obtain ⟨body, same, valid⟩ := matched
      obtain ⟨back, rfl⟩ := inside
      rw [(List.cons.inj same).2, List.append_assoc, List.singleton_append,
        valid.stringEnd?_append] at found
      cases found

/-- What is recognized at the front of a text fits it. -/
theorem fits_recognize (char : Char) (rest : List Char) :
    Fits (char :: rest) ⟨(recognize char rest).1, char :: rest.take (recognize char rest).2⟩ := by
  by_cases leads : char ∈ signChars
  · exact fits_sign leads
  by_cases blank : isBlank char
  · rw [recognize, if_pos blank]
    refine .blank (Pattern.longest_blanks blank) ?_
    rw [take_runLength, List.all_cons, blank, Bool.true_and, List.all_takeWhile]
  by_cases alpha : char.isAlpha
  · rw [recognize, if_neg blank, if_pos alpha]
    have kind : Pattern.word.kind? (char :: rest.take (runLength isWordChar rest)) =
        some (TokenKind.ofSpelling (char :: rest.takeWhile isWordChar)) := by
      rw [take_runLength]
      rfl
    exact .token (Pattern.longest_word alpha) kind
  by_cases digit : char.isDigit
  · rw [recognize, if_neg blank, if_neg alpha, if_pos digit]
    exact .token (Pattern.longest_integer digit) rfl
  by_cases quote : char = '"'
  · obtain rfl := quote
    exact fits_quote
  · have first : ∀ pair ∈ doubles, pair.1 ∈ signChars := by
      decide
    have two : ofTwo? char rest = none :=
      ofTwo?_of_not_double fun second _ double => leads (first _ double)
    have one : ofChar? char = none := by
      unfold ofChar?
      split <;> first | rfl | exact absurd (by decide) leads
    rw [(recognize_rest char rest blank alpha digit quote).2.2 two one]
    refine .illegal rfl fun pattern text front matched => ?_
    obtain ⟨more, rfl, inside, leading⟩ := leads_of_front front matched
    cases leading with
    | word isAlpha => exact alpha isAlpha
    | integer isDigit => exact digit isDigit
    | string => exact quote rfl
    | sign sign => exact leads sign
    | commentOpening | lineComment => exact leads (by decide)
    | blank isBlank => exact blank isBlank

end Piece

/-! ### There is one longest match, and so one piece -/

namespace Pattern

/-- No text is matched by two patterns. -/
private theorem Matches.unique {first second : Pattern} (one : first.Matches (char :: more))
    (two : second.Matches (char :: more)) : first = second := by
  have leads {pattern : Pattern} (matched : pattern.Matches (char :: more)) : Leads pattern char := by
    obtain ⟨_, _, same, leads⟩ := matched.leads
    exact (List.cons.inj same).1 ▸ leads
  have signApart {kind : TokenKind} (sign : kind ∈ TokenKind.signs) :
      kind.name.toList ≠ ['(', '*'] ∧ kind.name.toList.take 2 ≠ ['-', '-'] := by
    fin_cases sign <;> decide
  have line {pattern : Pattern} (matched : pattern.Matches (char :: more)) (sign : char ∈ signChars)
      (skip : pattern = .skipped) : ∃ later, char :: more = '-' :: '-' :: later := by
    obtain rfl := skip
    obtain ⟨_, blanks⟩ | ⟨later, same, _⟩ := matched
    · have blank := List.all_eq_true.mp blanks char List.mem_cons_self
      exact absurd sign (blank_apart blank).2.2.2
    · exact ⟨later, same⟩
  cases leads one with
  | word alpha => exact ((leads two).of_isAlpha alpha).symm
  | integer digit => exact ((leads two).of_isDigit digit).symm
  | string => exact (leads two).of_quote.symm
  | blank blank => exact ((leads two).of_isBlank blank).symm
  | @sign kind first sign =>
      cases leads two with
      | word alpha => exact absurd alpha (sign_apart sign).1
      | integer digit => exact absurd digit (sign_apart sign).2.1
      | string => exact absurd rfl (sign_apart sign).2.2
      | blank blank => exact absurd sign (blank_apart blank).2.2.2
      | @sign kind' _ _ => rw [sign_injective kind one.1 kind' two.1 (one.2.symm.trans two.2)]
      | commentOpening => exact absurd (one.2.symm.trans two) (signApart one.1).1
      | lineComment =>
          obtain ⟨later, same⟩ := line two sign rfl
          exact absurd (by rw [← one.2, same]; rfl) (signApart one.1).2
  | commentOpening =>
      have sign : '(' ∈ signChars := by decide
      cases leads two with
      | word alpha => exact absurd alpha (sign_apart sign).1
      | integer digit => exact absurd digit (sign_apart sign).2.1
      | blank blank => exact absurd sign (blank_apart blank).2.2.2
      | sign => exact absurd (two.2.symm.trans one) (signApart two.1).1
      | commentOpening => rfl
  | lineComment =>
      have sign : '-' ∈ signChars := by decide
      cases leads two with
      | word alpha => exact absurd alpha (sign_apart sign).1
      | integer digit => exact absurd digit (sign_apart sign).2.1
      | blank => rfl
      | sign =>
          obtain ⟨later, same⟩ := line one sign rfl
          exact absurd (by rw [← two.2, same]; rfl) (signApart two.1).2
      | lineComment => rfl

theorem Longest.ne_nil {text : List Char} (longest : pattern.Longest chars text) : text ≠ [] := by
  obtain ⟨char, more, rfl, _⟩ := longest.matched.leads
  exact List.cons_ne_nil char more

theorem Longest.unique {first second : Pattern} {text text' : List Char}
    (one : first.Longest chars text) (two : second.Longest chars text') :
    first = second ∧ text = text' := by
  have same : text = text' :=
    (List.prefix_of_prefix_length_le one.front two.front
      (two.bound _ _ one.front one.matched)).eq_of_length
      (Nat.le_antisymm (two.bound _ _ one.front one.matched) (one.bound _ _ two.front two.matched))
  obtain rfl := same
  obtain ⟨char, more, rfl, _⟩ := one.matched.leads
  exact ⟨one.matched.unique two.matched, rfl⟩

end Pattern

namespace Piece

variable {piece : Piece}

/-- The piece that begins with a longest match. -/
private def ofLongest (chars : List Char) (pattern : Pattern) (text : List Char) : Piece :=
  match pattern.kind? text with
  | some kind => ⟨.token kind, text⟩
  | none =>
      if text = ['(', '*'] then
        match commentEnd? 1 0 (chars.drop 2) with
        | some stop => ⟨.blockComment, chars.take (stop + 2)⟩
        | none => ⟨.openComment, chars⟩
      else if text.all isBlank then ⟨.blank, text⟩
      else ⟨.lineComment, text⟩

private theorem Fits.eq_ofLongest (fits : piece.Fits chars) :
    (∃ pattern text, Pattern.Longest chars pattern text ∧ piece = ofLongest chars pattern text) ∨
      ∃ char rest, chars = char :: rest ∧ piece = ⟨.illegal, [char]⟩ ∧
        ∀ (pattern : Pattern) (text : List Char), text <+: chars → ¬ pattern.Matches text := by
  cases fits with
  | @token pattern text kind longest isKind =>
      refine Or.inl ⟨pattern, text, longest, ?_⟩
      rw [ofLongest, isKind]
  | @blank text longest blanks =>
      refine Or.inl ⟨.skipped, text, longest, ?_⟩
      have notComment : text ≠ ['(', '*'] := by
        rintro rfl
        exact absurd blanks (by decide)
      rw [ofLongest, Pattern.kind?, if_neg notComment, if_pos blanks]
  | @lineComment text longest =>
      refine Or.inl ⟨.skipped, _, longest, ?_⟩
      rw [ofLongest, Pattern.kind?, if_neg (by simp), if_neg]
      rw [List.all_cons, show isBlank '-' = false by decide]
      simp
  | @blockComment body longest front closes =>
      refine Or.inl ⟨.commentOpening, _, longest, ?_⟩
      obtain ⟨back, rfl⟩ := front
      have ends : commentEnd? 1 0 (body ++ back) = some body.length := by
        rw [commentEnd?_complete Nat.one_pos closes back, Nat.zero_add]
      rw [ofLongest, Pattern.kind?, if_pos rfl]
      simp [ends]
  | @openComment rest longest whole endless =>
      refine Or.inl ⟨.commentOpening, _, longest, ?_⟩
      obtain rfl := whole
      have ends : commentEnd? 1 0 rest = none := (commentEnd?_eq_none_iff Nat.one_pos).mpr endless
      rw [ofLongest, Pattern.kind?, if_pos rfl]
      simp [ends]
  | @illegal char rest whole unmatched =>
      exact Or.inr ⟨char, rest, whole, rfl, unmatched⟩

theorem Fits.unique {one two : Piece} (first : one.Fits chars) (second : two.Fits chars) :
    one = two := by
  rcases first.eq_ofLongest with ⟨pattern, text, longest, rfl⟩ | ⟨char, rest, rfl, rfl, unmatched⟩ <;>
    rcases second.eq_ofLongest with
      ⟨pattern', text', longest', rfl⟩ | ⟨char', rest', whole, rfl, unmatched'⟩
  · obtain ⟨rfl, rfl⟩ := longest.unique longest'
    rfl
  · exact absurd longest.matched (unmatched' _ _ longest.front)
  · exact absurd longest'.matched (unmatched _ _ longest'.front)
  · rw [(List.cons.inj whole).1]

theorem Cut.flatMap_text {pieces : List Piece} (cut : Cut chars pieces) :
    pieces.flatMap Piece.text = chars := by
  induction cut with
  | done => rfl
  | next _ _ ih => rw [List.flatMap_cons, ih]

theorem Fits.exists_cons (fits : piece.Fits chars) : ∃ char rest, chars = char :: rest := by
  rcases fits.eq_ofLongest with ⟨pattern, text, longest, _⟩ | ⟨char, rest, whole, _⟩
  · obtain ⟨char, more, rfl, _⟩ := longest.matched.leads
    obtain ⟨back, rfl⟩ := longest.front
    exact ⟨char, _, rfl⟩
  · exact ⟨char, rest, whole⟩

theorem split_cons (char : Char) (rest : List Char) :
    split (char :: rest) = ⟨(recognize char rest).1, char :: rest.take (recognize char rest).2⟩ ::
      split (rest.drop (recognize char rest).2) := by
  rw [split]

theorem Fits.text_ne_nil (fits : piece.Fits chars) : piece.text ≠ [] := by
  cases fits with
  | token longest | blank longest => exact longest.ne_nil
  | lineComment | blockComment | illegal => simp
  | openComment _ whole =>
      rw [whole]
      simp

/-- A comment that is never closed takes all of the text. -/
theorem Fits.text_of_openComment (fits : piece.Fits chars) (isOpen : piece.form = .openComment) :
    piece.text = chars := by
  cases fits with
  | openComment => rfl
  | token | blank | lineComment | blockComment | illegal => cases isOpen

/-- A text is cut into the piece that fits it and the pieces of what is left. -/
theorem split_of_fits (fits : piece.Fits (piece.text ++ rest)) :
    split (piece.text ++ rest) = piece :: split rest := by
  obtain ⟨char, later, whole⟩ := fits.exists_cons
  rw [whole] at fits ⊢
  have same := fits.unique (fits_recognize char later)
  have left : later.drop (recognize char later).2 = rest := by
    rw [same, List.cons_append] at whole
    exact List.append_cancel_left
      ((List.take_append_drop (recognize char later).2 later).trans (List.cons.inj whole).2.symm)
  rw [split_cons, left, ← same]

theorem cut_split (chars : List Char) : Cut chars (split chars) := by
  induction chars using split.induct with
  | case1 => rw [split]; exact .done
  | case2 char rest form count recognized ih =>
      have fits := fits_recognize char rest
      rw [recognized] at fits
      have whole : (char :: rest.take count) ++ rest.drop count = char :: rest := by
        rw [List.cons_append, List.take_append_drop]
      rw [split, recognized]
      rw [← whole] at fits ⊢
      exact @Cut.next ⟨form, char :: rest.take count⟩ _ _ fits ih

/-- The pieces of a text are the only ones that it falls into. -/
theorem cut_iff {pieces : List Piece} : Cut chars pieces ↔ pieces = split chars := by
  constructor
  · intro cut
    induction cut with
    | done => rw [split]
    | next fits _ ih => rw [split_of_fits fits, ih]
  · rintro rfl
    exact cut_split chars

end Piece

end CoolLang
