import CoolLang.Proofs.Token.Scan

/-!
Scanning again. The tokens of a text that are written one after another, with a blank between two of them,
are scanned as the same tokens, whatever stood between them before. Of the faults only those of integers are
found again (`Matcher.scan_respaced`).
-/

namespace CoolLang

variable {rest : List Char} {blank : Char} {piece : Piece} {pieces : List Piece} {matcher : Matcher}

/-- Whether a problem of the scanner is that of an integer which is out of range. -/
def Problem.isRangeFault : Problem → Bool
  | .lexical message => "Integer literal ".toList.isPrefixOf message.toList
  | _ => false

namespace Piece

/-! ### Tokens with blanks between them -/

/-- Whether a piece is a token that can stand alone. -/
def IsToken (piece : Piece) : Prop :=
  ∃ pattern kind, piece.form = .token kind ∧ Pattern.Matches pattern piece.text ∧
    pattern.kind? piece.text = some kind

theorem Fits.isToken {chars : List Char} {kind : TokenKind} (fits : piece.Fits chars)
    (isForm : piece.form = .token kind) : piece.IsToken := by
  cases fits with
  | token longest isKind => exact ⟨_, _, rfl, longest.matched, isKind⟩
  | blank | lineComment | blockComment | openComment | illegal => cases isForm

theorem IsToken.exists_not_blank (isToken : piece.IsToken) :
    ∃ first more, piece.text = first :: more ∧ ¬ isBlank first := by
  obtain ⟨pattern, kind, _, matched, isKind⟩ := isToken
  exact matched.exists_not_blank (by rw [isKind]; rfl)

theorem IsToken.split_append (isToken : piece.IsToken) (apart : ∀ next ∈ rest.head?, isBlank next) :
    split (piece.text ++ rest) = piece :: split rest := by
  obtain ⟨pattern, kind, isForm, matched, isKind⟩ := isToken
  have longest := matched.longest_before_blank (by rw [isKind]; rfl) apart
  have fits : piece.Fits (piece.text ++ rest) := by
    obtain ⟨form, text⟩ := piece
    cases isForm
    exact .token longest isKind
  exact split_of_fits fits

theorem IsToken.split_text (isToken : piece.IsToken) : split piece.text = [piece] := by
  have nothing : ∀ next ∈ ([] : List Char).head?, isBlank next := fun _ none => nomatch none
  have alone := isToken.split_append nothing
  rwa [List.append_nil, split] at alone

theorem split_blank (isBlank' : isBlank blank) (apart : ∀ next ∈ rest.head?, ¬ isBlank next) :
    split (blank :: rest) = ⟨.blank, [blank]⟩ :: split rest := by
  have nothing : runLength isBlank rest = 0 := by
    cases rest with
    | nil => rfl
    | cons next rest => rw [runLength, List.takeWhile_cons_of_neg (apart next rfl)]; rfl
  rw [split_cons, recognize, if_pos isBlank', nothing, List.take_zero, List.drop_zero]

/-- Tokens with a blank between two of them fall into these tokens and blanks. -/
theorem split_intercalate (isBlank' : isBlank blank) (areTokens : ∀ piece ∈ pieces, piece.IsToken) :
    split ([blank].intercalate (pieces.map Piece.text)) = pieces.intersperse ⟨.blank, [blank]⟩ := by
  induction pieces with
  | nil => rw [List.map_nil, List.intercalate_nil, split]; rfl
  | cons first others ih =>
      obtain ⟨isToken, areTokens⟩ := List.forall_mem_cons.mp areTokens
      cases others with
      | nil =>
          rw [List.map_singleton, List.intercalate_singleton, isToken.split_text]
          rfl
      | cons second others =>
          obtain ⟨next, more, begins, notBlank⟩ := (areTokens second List.mem_cons_self).exists_not_blank
          specialize ih areTokens
          generalize joined : [blank].intercalate ((second :: others).map Piece.text) = back at ih
          have head : back.head? = some next := by
            rw [← joined, List.map_cons, begins]
            cases others <;> rfl
          rw [List.map_cons, List.map_cons, List.intercalate_cons_cons, ← List.map_cons, joined,
            List.append_assoc, isToken.split_append, List.singleton_append, split_blank isBlank', ih]
          · rfl
          · intro other isHead
            cases head.symm.trans isHead
            exact notBlank
          · intro other isHead
            cases isHead
            exact isBlank'

/-! ### Scans but for positions -/

/-- A token but for its position. -/
def spelling? (piece : Piece) : Option (TokenKind × String) :=
  match piece.form with
  | .token kind => some (kind, String.ofList piece.text)
  | _ => none

/-- The pieces that are tokens. -/
def tokens (pieces : List Piece) : List Piece :=
  pieces.filter fun piece => piece.spelling?.isSome

theorem isToken_of_mem_tokens {source : List Char} (member : piece ∈ tokens (split source)) :
    piece.IsToken := by
  obtain ⟨within, spelled⟩ := List.mem_filter.mp member
  obtain ⟨left, fits⟩ := (cut_split source).exists_fits within
  unfold spelling? at spelled
  split at spelled
  · next kind isForm => exact fits.isToken isForm
  · cases spelled

theorem filterMap_spelling?_tokens (pieces : List Piece) :
    (tokens pieces).filterMap spelling? = pieces.filterMap spelling? := by
  rw [tokens, List.filterMap_filter]
  refine List.filterMap_congr fun piece _ => ?_
  cases piece.spelling? <;> rfl

theorem spellings_scanned (before : List Char) (pieces : List Piece) :
    (scanned before pieces).tokens.map (fun token => (token.kind, token.lexeme)) =
      pieces.filterMap spelling? := by
  induction pieces generalizing before with
  | nil => rfl
  | cons piece pieces ih =>
      obtain ⟨form, text⟩ := piece
      rw [scanned_cons, List.filterMap_cons, ← ih (before ++ text)]
      cases form <;> rfl

theorem lexemes_scanned (before : List Char) (pieces : List Piece) :
    (scanned before pieces).tokens.map Token.lexeme =
      (tokens pieces).map fun piece => String.ofList piece.text := by
  induction pieces generalizing before with
  | nil => rfl
  | cons piece pieces ih =>
      obtain ⟨form, text⟩ := piece
      rw [scanned_cons, tokens, List.filter_cons]
      cases form with
      | token => exact congrArg _ (ih (before ++ text))
      | blank | lineComment | blockComment | openComment | illegal => exact ih (before ++ text)

theorem problems_scanned (before : List Char) (pieces : List Piece) :
    (scanned before pieces).errors.map Diagnostic.problem =
      pieces.filterMap fun piece => piece.fault?.map Problem.lexical := by
  induction pieces generalizing before with
  | nil => rfl
  | cons piece pieces ih =>
      rw [scanned_cons, List.filterMap_cons, ← ih (before ++ piece.text)]
      cases piece.fault? <;> rfl

/-- Blanks between pieces are not seen. -/
theorem filterMap_intersperse_blank {β : Type} {view : Piece → Option β} {text : List Char}
    (unseen : view ⟨.blank, text⟩ = none) (pieces : List Piece) :
    (pieces.intersperse ⟨.blank, text⟩).filterMap view = pieces.filterMap view := by
  induction pieces with
  | nil => rfl
  | cons first others ih =>
      cases others with
      | nil => rfl
      | cons second others =>
          rw [List.intersperse_cons_cons, List.filterMap_cons, List.filterMap_cons_none unseen, ih,
            ← List.filterMap_cons]

theorem isRangeFault_of_token {kind : TokenKind} {text : List Char} {message : String}
    (isFault : fault? ⟨.token kind, text⟩ = some message) :
    (Problem.lexical message).isRangeFault := by
  unfold fault? at isFault
  split at isFault
  · next isForm => cases isForm
  · next isForm => cases isForm
  · split at isFault
    · cases isFault
    · cases isFault
      simp [Problem.isRangeFault]
  · cases isFault

/-- Only what is said of an integer is a range fault. -/
theorem filter_problems (pieces : List Piece) :
    (pieces.filterMap fun piece => piece.fault?.map Problem.lexical).filter Problem.isRangeFault =
      (tokens pieces).filterMap fun piece => piece.fault?.map Problem.lexical := by
  rw [tokens]
  induction pieces with
  | nil => rfl
  | cons piece pieces ih =>
      obtain ⟨form, text⟩ := piece
      rw [List.filterMap_cons]
      cases form with
      | token kind =>
          rw [List.filter_cons_of_pos rfl, List.filterMap_cons, ← ih]
          cases isFault : fault? ⟨.token kind, text⟩ with
          | none => rfl
          | some message => exact List.filter_cons_of_pos (isRangeFault_of_token isFault)
      | blank | lineComment | blockComment => exact ih
      | openComment => exact ih
      | illegal =>
          refine Eq.trans (List.filter_cons_of_neg ?_) ih
          simp [Problem.isRangeFault]

end Piece

namespace Scan

/-- The lexemes of the tokens, with one character between two of them. -/
def respace (scan : Scan) (separator : Char) : String :=
  (String.singleton separator).intercalate
    ((scan.tokens.filter fun token => token.kind ≠ .endOfInput).map Token.lexeme)

variable {separator : Char}

/-- What is scanned of a text but for positions. -/
theorem spellings_ofSource (source : String) :
    (ofSource source).tokens.map (fun token => (token.kind, token.lexeme)) =
      (Piece.split source.toList).filterMap Piece.spelling? ++ [(.endOfInput, "$")] := by
  rw [Piece.ofSource_eq_scanned, List.map_append, Piece.spellings_scanned]
  rfl

theorem problems_ofSource (source : String) :
    (ofSource source).errors.map Diagnostic.problem =
      (Piece.split source.toList).filterMap fun piece => piece.fault?.map Problem.lexical := by
  rw [Piece.ofSource_eq_scanned, Piece.problems_scanned]

theorem lexemes_ofSource (source : String) :
    ((ofSource source).tokens.filter fun token => token.kind ≠ .endOfInput).map Token.lexeme =
      (Piece.tokens (Piece.split source.toList)).map fun piece => String.ofList piece.text := by
  have ends := (accounts_ofSource source).ends_once
  rw [Piece.ofSource_eq_scanned, List.dropLast_concat] at ends
  rw [Piece.ofSource_eq_scanned, List.filter_append, List.filter_eq_self.mpr, ← Piece.lexemes_scanned []]
  · exact congrArg _ (List.append_nil _)
  · intro token member
    exact decide_eq_true (ends token member)

theorem split_respace (source : String) (blank : Piece.isBlank separator) :
    Piece.split ((ofSource source).respace separator).toList =
      (Piece.tokens (Piece.split source.toList)).intersperse ⟨.blank, [separator]⟩ := by
  rw [respace, lexemes_ofSource, String.toList_intercalate, String.toList_singleton, List.map_map,
    ← Piece.split_intercalate blank fun _ => Piece.isToken_of_mem_tokens]
  simp only [Function.comp_def, String.toList_ofList]

theorem spellings_respace (source : String) (blank : Piece.isBlank separator) :
    (ofSource ((ofSource source).respace separator)).tokens.map
        (fun token => (token.kind, token.lexeme)) =
      (ofSource source).tokens.map fun token => (token.kind, token.lexeme) := by
  rw [spellings_ofSource, split_respace source blank, Piece.filterMap_intersperse_blank rfl,
    Piece.filterMap_spelling?_tokens, spellings_ofSource]

theorem problems_respace (source : String) (blank : Piece.isBlank separator) :
    (ofSource ((ofSource source).respace separator)).errors.map Diagnostic.problem =
      ((ofSource source).errors.map Diagnostic.problem).filter Problem.isRangeFault := by
  rw [problems_ofSource, split_respace source blank, Piece.filterMap_intersperse_blank rfl,
    problems_ofSource, Piece.filter_problems]

end Scan

namespace Matcher

/-- If the tokens of a text are written with a blank between two of them, the same tokens are scanned
again, and of the faults all those of integers and no others. -/
theorem scan_respaced (longest : matcher.IsLongest) (source : String) {separator : Char}
    (blank : Piece.isBlank separator) :
    let scan := matcher.scan source
    let again := matcher.scan (scan.respace separator)
    again.tokens.map (fun token => (token.kind, token.lexeme)) =
        scan.tokens.map (fun token => (token.kind, token.lexeme)) ∧
      again.errors.map Diagnostic.problem =
        (scan.errors.map Diagnostic.problem).filter Problem.isRangeFault ∧
      ∀ error ∈ again.errors, error.problem ≠ .lexical "EOF in comment." ∧
        ∀ shown, error.problem ≠ .lexical ("Illegal character '" ++ shown ++ "'.") := by
  simp only [scan_eq_ofSource longest]
  have problems := Scan.problems_respace source blank
  refine ⟨Scan.spellings_respace source blank, problems, ?_⟩
  intro error member
  have isRange : error.problem.isRangeFault := by
    have within := List.mem_map_of_mem (f := Diagnostic.problem) member
    rw [problems] at within
    exact (List.mem_filter.mp within).2
  constructor
  · intro isOpen
    rw [isOpen] at isRange
    exact absurd isRange (by decide)
  · intro shown isIllegal
    rw [isIllegal] at isRange
    simp [Problem.isRangeFault] at isRange

/-- Escapes and a line feed in a string, signs that would make a comment or one sign if they were closer, an
integer that is too large, and what is no token. -/
def crowdedSource : String := "(* * *)x<-\"\\\"\\\n\\\\\"99999999999999999999# - --\n-<(*"

set_option maxRecDepth 100000 in
theorem scan_respaced_crowdedSource :
    standard.IsLongest ∧ Piece.isBlank '\n' ∧
      (let scan := standard.scan crowdedSource
      let again := standard.scan (scan.respace '\n')
      again.tokens.map (fun token => (token.kind, token.lexeme)) =
          scan.tokens.map (fun token => (token.kind, token.lexeme)) ∧
        again.errors.map Diagnostic.problem =
          (scan.errors.map Diagnostic.problem).filter Problem.isRangeFault ∧
        ∀ error ∈ again.errors, error.problem ≠ .lexical "EOF in comment." ∧
          ∀ shown, error.problem ≠ .lexical ("Illegal character '" ++ shown ++ "'.")) ∧
      (Scan.ofSource crowdedSource).respace '\n' =
        "x\n<-\n\"\\\"\\\n\\\\\"\n99999999999999999999\n-\n-\n<" ∧
      (Scan.ofSource crowdedSource).errors.length = 3 :=
  ⟨isLongest_standard, rfl, scan_respaced isLongest_standard crowdedSource rfl, by cbv, by cbv⟩

end Matcher

end CoolLang
