import CoolLang.Proofs.Program.Parts
import CoolLang.Proofs.Text.Literal
import CoolLang.Proofs.Token.Respacing

/-!
From a literal in a source text to its value in a program. The scanner and the parser read a literal
separately: the one by a pattern, the other by the lexeme that the pattern has matched. They agree on what it
spells (`Matcher.literals_denote`).
-/

namespace CoolLang

open Text

/-! ### Literals of a program -/

namespace Value

/-- The literals in a part of a program, in order. -/
def signs (value : Value) : List (Position × Literal) :=
  value.literals ++ value.parts.filterMap Expr.literal?

theorem signs_expr (expr : Expr) :
    (Value.expr expr).signs = expr.literal?.toList ++ expr.inside.filterMap Expr.literal? := by
  rw [signs, parts, List.filterMap_cons]
  cases expr.literal? <;> rfl

/-- Where no token is a literal, the literals are those of the expressions. -/
theorem flatMap_signs {values : List Value} (none : values.flatMap literals = []) :
    values.flatMap signs = (values.flatMap parts).filterMap Expr.literal? := by
  induction values with
  | nil => rfl
  | cons value values ih =>
      rw [List.flatMap_cons, List.append_eq_nil_iff] at none
      rw [List.flatMap_cons, List.flatMap_cons, List.filterMap_append, ih none.2, signs, none.1,
        List.nil_append]

end Value

namespace Program

/-- A rule keeps the literals of the parts that it puts together. -/
theorem Gathers.signs_eq {rule : Rule BuildAction} {arguments : List Value} {value : Value}
    (gathers : Gathers rule arguments value) : value.signs = arguments.flatMap Value.signs := by
  have unsigned {kind : TokenKind} {token : Token} (isKind : token.kind = kind)
      (notInteger : kind ≠ .integer) (notString : kind ≠ .string) : (Value.token token).signs = [] := by
    subst isKind
    rw [Value.signs, Value.literals, Token.literal?]
    split
    · next isInteger => exact absurd isInteger notInteger
    · next isString => exact absurd isString notString
    · rfl
  cases gathers with
  | widened => simp only [List.flatMap_cons, List.flatMap_nil, List.append_nil]
  | enclosed _ _ isLeft isRight =>
      simp only [List.flatMap_cons, List.flatMap_nil, List.append_nil, List.nil_append,
        unsigned isLeft nofun nofun, unsigned isRight nofun nofun]
  | word _ _ _ alone same =>
      rw [Value.signs_expr, alone, same, List.flatMap_singleton, Value.signs]
      rfl
  | composed _ _ _ plain none parts =>
      rw [Value.signs_expr, plain, parts, Value.flatMap_signs none]
      rfl
  | gathered _ _ notToken none parts =>
      rw [Value.flatMap_signs none, ← parts, Value.signs]
      cases value with
      | token token => exact absurd rfl (notToken token)
      | _ => rfl

mutual

/-- What is read of tokens has their literals. -/
theorem Reads.signs_eq {symbol : Symbol} {tokens : List Token} {value : Value} :
    Reads symbol tokens value → value.signs = tokens.filterMap Token.literal?
  | .token token => by
      rw [Value.signs, Value.literals, List.filterMap_cons]
      cases token.literal? <;> rfl
  | .phrase listed has inside built => by
      rw [(gathers_of_reads listed has inside built).signs_eq, inside.signs_eq]

theorem ReadAll.signs_eq {symbols : List Symbol} {tokens : List Token} {values : List Value} :
    ReadAll symbols tokens values → values.flatMap Value.signs = tokens.filterMap Token.literal?
  | .nil => rfl
  | .cons first others => by
      rw [List.flatMap_cons, first.signs_eq, others.signs_eq, List.filterMap_append]

end

/-- The literals of a program are those of the tokens up to the end of input, in order. -/
theorem literals_of_parse {tokens : List Token} {program : Program} (parsed : parse tokens = .ok program) :
    ∃ word last rest, tokens = word ++ last :: rest ∧ last.kind = .endOfInput ∧
      program.exprs.filterMap Expr.literal? = word.filterMap Token.literal? := by
  obtain ⟨word, last, rest, reads, whole, atEnd⟩ := parse_eq_ok_iff_reads.mp parsed
  exact ⟨word, last, rest, whole, atEnd, reads.signs_eq⟩

end Program

/-! ### Literals of a text -/

/-- The inside of a string literal falls into units. -/
theorem StringBody.exists_units {body : List Char} (valid : StringBody body) :
    ∃ units : List LiteralUnit, body = units.flatMap LiteralUnit.spelling := by
  induction valid with
  | empty => exact ⟨[], rfl⟩
  | @plain char _ notQuote notBackslash notFeed _ ih =>
      obtain ⟨units, rfl⟩ := ih
      exact ⟨.plain char ⟨notQuote, notBackslash, notFeed⟩ :: units, rfl⟩
  | @escaped char _ _ ih =>
      obtain ⟨units, rfl⟩ := ih
      exact ⟨.escape char :: units, rfl⟩

theorem stringBody_flatMap_quoteChar (chars : List Char) : StringBody (chars.flatMap quoteChar) := by
  induction chars with
  | nil => exact .empty
  | cons char chars ih =>
      rw [List.flatMap_cons, quoteChar]
      split
      · next letter =>
          refine .plain ?_ ?_ ?_ ih <;> rintro rfl <;> simp at letter
      · exact .escaped ih

/-- What the literals of a scan denote. -/
structure Scan.Denotes (scan : Scan) : Prop where
  /-- A numeral denotes its decimal value, or the greatest number if that is less, and is then reported. -/
  integers : ∀ token ∈ scan.tokens, token.kind = .integer →
    let value := Nat.ofDigitChars 10 token.lexeme.toList 0
    token.lexeme.toList ≠ [] ∧ token.lexeme.toList.all Char.isDigit ∧
      token.literal? = some (token.position, .integer ↑(min value (2 ^ 63 - 1))) ∧
      scan.errors.filter (fun error => error.position = token.position) =
        if 2 ^ 63 - 1 < value then
          [⟨token.position, .lexical ("Integer literal " ++ token.lexeme ++ " is out of range.")⟩]
        else []
  /-- A string is units between two quotes, which it falls into in one way, and denotes what they stand
  for. -/
  strings : ∀ token ∈ scan.tokens, token.kind = .string → ∃ units : List LiteralUnit,
    token.lexeme.toList = '"' :: units.flatMap LiteralUnit.spelling ++ ['"'] ∧
      (∀ others : List LiteralUnit,
        token.lexeme.toList = '"' :: others.flatMap LiteralUnit.spelling ++ ['"'] → others = units) ∧
      token.literal? =
        some (token.position, .string (String.ofList (units.map LiteralUnit.value)))
  /-- A program that is parsed has these literals, in order, where they are written. -/
  parsed : ∀ program, Program.parse scan.tokens = .ok program →
    program.exprs.filterMap Expr.literal? = scan.tokens.filterMap Token.literal?

namespace Scan

open Piece

variable {source : String} {token : Token}

/-- A token is a piece, unless it is the end. -/
theorem exists_piece_of_mem (member : token ∈ (ofSource source).tokens)
    (notEnd : token.kind ≠ .endOfInput) :
    ∃ front piece, (front, piece) ∈ locate [] (split source.toList) ∧
      piece.form = .token token.kind ∧ token.lexeme.toList = piece.text ∧
      token.position = .behind front ∧ (Pattern.ofKind token.kind).Matches piece.text := by
  rw [ofSource_eq_scanned] at member
  rcases List.mem_append.mp member with within | last
  · obtain ⟨⟨front, piece⟩, located, isToken⟩ := List.mem_filterMap.mp within
    obtain ⟨left, fits⟩ := (cut_split source.toList).exists_fits (mem_of_mem_locate located)
    have isToken : piece.token? (.behind front) = some token := isToken
    unfold token? at isToken
    split at isToken
    · next kind isForm =>
        cases isToken
        obtain ⟨pattern, _, isForm', matched, isKind⟩ := fits.isToken isForm
        cases isForm.symm.trans isForm'
        refine ⟨front, piece, located, isForm, String.toList_ofList, rfl, ?_⟩
        rwa [Matcher.ofKind_of_kind? matched isKind]
    · cases isToken
  · exact absurd (List.mem_singleton.mp last ▸ rfl) notEnd

/-- What is reported of a piece, behind all of the text before it. -/
def reports (before : List Char) (piece : Piece) : List Diagnostic :=
  (piece.fault?.map fun message => (⟨.behind before, .lexical message⟩ : Diagnostic)).toList

theorem filter_reports_eq_nil {position : Position} {others : List (List Char × Piece)}
    (elsewhere : ∀ other ∈ others, Position.behind other.1 ≠ position) :
    (others.flatMap fun other => reports other.1 other.2).filter
      (fun error => error.position = position) = [] := by
  rw [List.filter_eq_nil_iff]
  intro error member here
  obtain ⟨other, within, isError⟩ := List.mem_flatMap.mp member
  obtain ⟨message, _, rfl⟩ := Option.map_eq_some_iff.mp (Option.mem_toList.mp isError)
  exact elsewhere other within (of_decide_eq_true here)

/-- What is reported where a piece begins is what is wrong with it. -/
theorem errors_at {front : List Char} {piece : Piece}
    (located : (front, piece) ∈ locate [] (split source.toList)) :
    (ofSource source).errors.filter (fun error => error.position = .behind front) =
      reports front piece := by
  obtain ⟨before, after, whole⟩ := List.append_of_mem located
  have ordered := pairwise_locate [] (cut_split source.toList)
  rw [whole, List.pairwise_append, List.pairwise_cons] at ordered
  have irrefl (position : Position) : ¬ position.Before position := by
    unfold Position.Before
    omega
  have here : (reports front piece).filter (fun error => error.position = .behind front) =
      reports front piece := by
    rw [reports]
    cases piece.fault? with
    | none => rfl
    | some message => exact List.filter_cons_of_pos (decide_eq_true rfl)
  rw [(accounts_ofSource source).errors, List.filterMap_eq_flatMap_toList, whole, List.flatMap_append,
    List.flatMap_cons, List.filter_append, List.filter_append]
  -- the other pieces begin elsewhere
  calc
    _ = [] ++ (reports front piece ++ []) := by
      refine congrArg₂ _ (filter_reports_eq_nil fun other member same => ?_)
        (congrArg₂ _ here (filter_reports_eq_nil fun other member same => ?_))
      · exact irrefl _ (same ▸ ordered.2.2 other member (front, piece) List.mem_cons_self)
      · exact irrefl _ (same ▸ ordered.2.1.1 other member)
    _ = reports front piece := by rw [List.append_nil, List.nil_append]

theorem integers_denote (member : token ∈ (ofSource source).tokens) (isInteger : token.kind = .integer) :
    let value := Nat.ofDigitChars 10 token.lexeme.toList 0
    token.lexeme.toList ≠ [] ∧ token.lexeme.toList.all Char.isDigit ∧
      token.literal? = some (token.position, .integer ↑(min value (2 ^ 63 - 1))) ∧
      (ofSource source).errors.filter (fun error => error.position = token.position) =
        if 2 ^ 63 - 1 < value then
          [⟨token.position, .lexical ("Integer literal " ++ token.lexeme ++ " is out of range.")⟩]
        else [] := by
  obtain ⟨front, piece, located, isForm, lexeme, position, matched⟩ :=
    exists_piece_of_mem member (by rw [isInteger]; decide)
  rw [isInteger] at isForm matched
  obtain ⟨some, digits⟩ : piece.text ≠ [] ∧ piece.text.all Char.isDigit := matched
  rw [← lexeme] at some digits
  rw [← decimalValue_eq_ofDigitChars]
  refine ⟨some, digits, ?_, ?_⟩
  · rw [Token.literal?, isInteger, integerLiteral_of_digits some digits]
    rfl
  · rw [position, errors_at located, reports, fault?, isForm, ← lexeme, String.ofList_toList]
    dsimp only
    by_cases small : decimalValue token.lexeme.toList ≤ 2 ^ 63 - 1
    · rw [if_pos (show _ ≤ maxInteger from small), if_neg (Nat.not_lt.mpr small)]
      rfl
    · rw [if_neg (show ¬ _ ≤ maxInteger from small), if_pos (Nat.lt_of_not_le small)]
      rfl

theorem strings_denote (member : token ∈ (ofSource source).tokens) (isString : token.kind = .string) :
    ∃ units : List LiteralUnit,
      token.lexeme.toList = '"' :: units.flatMap LiteralUnit.spelling ++ ['"'] ∧
        (∀ others : List LiteralUnit,
          token.lexeme.toList = '"' :: others.flatMap LiteralUnit.spelling ++ ['"'] → others = units) ∧
        token.literal? =
          some (token.position, .string (String.ofList (units.map LiteralUnit.value))) := by
  obtain ⟨front, piece, _, _, lexeme, _, matched⟩ :=
    exists_piece_of_mem member (by rw [isString]; decide)
  rw [isString] at matched
  obtain ⟨body, quoted, valid⟩ : ∃ body, piece.text = '"' :: (body ++ ['"']) ∧ StringBody body := matched
  obtain ⟨units, rfl⟩ := valid.exists_units
  have spelled : token.lexeme.toList = '"' :: units.flatMap LiteralUnit.spelling ++ ['"'] :=
    lexeme.trans quoted
  refine ⟨units, spelled, fun others same => ?_, ?_⟩
  · rw [spelled] at same
    exact LiteralUnit.spelling_injective (List.cons.inj (List.append_cancel_right same)).2.symm
  · rw [Token.literal?, isString, stringLiteral_of_units spelled]

theorem literals_of_parse_ofSource {program : Program}
    (parsed : Program.parse (ofSource source).tokens = .ok program) :
    program.exprs.filterMap Expr.literal? = (ofSource source).tokens.filterMap Token.literal? := by
  obtain ⟨word, last, rest, whole, atEnd, same⟩ := Program.literals_of_parse parsed
  have ends := (accounts_ofSource source).ends_once
  -- there is but one end of input, behind all other tokens
  obtain rfl : rest = [] := by
    by_contra more
    refine ends last ?_ atEnd
    rw [whole, List.dropLast_append_of_ne_nil (List.cons_ne_nil _ _), List.dropLast_cons_of_ne_nil more]
    exact List.mem_append_right _ List.mem_cons_self
  have silent : last.literal? = none := by rw [Token.literal?, atEnd]
  rw [whole, List.filterMap_append, List.filterMap_cons_none silent, List.filterMap_nil, List.append_nil,
    same]

theorem ofSource_quote (value : String) :
    ofSource (quote value) =
      ⟨[⟨.string, quote value, .first⟩, .endOfInput (.behind (quote value).toList)], []⟩ := by
  have isToken : Piece.IsToken ⟨.token .string, (quote value).toList⟩ :=
    ⟨.string, .string, rfl, ⟨_, String.toList_ofList, stringBody_flatMap_quoteChar _⟩, rfl⟩
  rw [ofSource_eq_scanned, isToken.split_text, scanned_cons]
  simp only [token?, fault?, String.ofList_toList]
  rfl

end Scan

namespace Matcher

variable {matcher : Matcher}

/-- Scanner and parser agree on what the literals of a text denote, and every text is denoted by one. -/
theorem literals_denote (longest : matcher.IsLongest) :
    (∀ source, (matcher.scan source).Denotes) ∧
      ∀ value, let token : Token := ⟨.string, quote value, .first⟩
        token.literal? = some (.first, .string value) ∧
          ∃ position, matcher.scan (quote value) = ⟨[token, .endOfInput position], []⟩ := by
  simp only [scan_eq_ofSource longest]
  refine ⟨fun source => ⟨fun _ => Scan.integers_denote, fun _ => Scan.strings_denote,
    fun _ => Scan.literals_of_parse_ofSource⟩, fun value => ⟨?_, _, Scan.ofSource_quote value⟩⟩
  rw [Token.literal?, stringLiteral_quote]

/-- Numerals with leading zeros and beyond the greatest number, and strings with backslashes before a quote,
an escaped line feed and an escaped letter. -/
def literalSource : String := "0012 9223372036854775808 \"a\\\\\" \"\\\"\\\n\\t\""

set_option maxRecDepth 100000 in
theorem tokens_literalSource :
    (Scan.ofSource literalSource).tokens =
      [⟨.integer, "0012", ⟨1, 1⟩⟩, ⟨.integer, "9223372036854775808", ⟨1, 6⟩⟩,
        ⟨.string, "\"a\\\\\"", ⟨1, 26⟩⟩, ⟨.string, "\"\\\"\\\n\\t\"", ⟨1, 32⟩⟩,
        .endOfInput ⟨2, 4⟩] := by
  cbv

theorem literals_denote_literalSource :
    standard.IsLongest ∧
      ((∀ source, (standard.scan source).Denotes) ∧
        ∀ value, let token : Token := ⟨.string, quote value, .first⟩
          token.literal? = some (.first, .string value) ∧
            ∃ position, standard.scan (quote value) = ⟨[token, .endOfInput position], []⟩) ∧
      (Scan.ofSource literalSource).tokens.filterMap Token.literal? =
        [(⟨1, 1⟩, .integer 12), (⟨1, 6⟩, .integer 9223372036854775807),
          (⟨1, 26⟩, .string "a\\"), (⟨1, 32⟩, .string "\"\n\t")] := by
  refine ⟨isLongest_standard, literals_denote isLongest_standard, ?_⟩
  rw [tokens_literalSource]
  decide +kernel

end Matcher

end CoolLang
