import CoolLang.Proofs.Source.LineIndex
import CoolLang.Proofs.Token.Longest
import Mathlib

/-!
Scanning accounts for every character of a text (`Scan.accounts_ofSource`), and any matcher that finds
the longest matches scans as the pieces of the text tell (`Matcher.scan_eq_ofSource`).
-/

namespace CoolLang

variable {chars rest : List Char} {piece : Piece} {pieces : List Piece} {matcher : Matcher}

/-! ### The tokens and faults of pieces -/

namespace Piece

/-- The scan of pieces that have `before` before them. -/
def scanned (before : List Char) (pieces : List Piece) : Scan where
  tokens := (locate before pieces).filterMap fun (before, piece) => piece.token? (.behind before)
  errors := (locate before pieces).filterMap fun (before, piece) =>
    piece.fault?.map fun message => ⟨.behind before, .lexical message⟩

theorem scanned_cons (before : List Char) (piece : Piece) (pieces : List Piece) :
    scanned before (piece :: pieces) =
      let later := scanned (before ++ piece.text) pieces
      ⟨(piece.token? (.behind before)).toList ++ later.tokens,
        (piece.fault?.map fun message => (⟨.behind before, .lexical message⟩ : Diagnostic)).toList ++
          later.errors⟩ := by
  simp only [scanned, locate, List.filterMap_cons]
  cases piece.token? (.behind before) <;> cases piece.fault? <;> rfl

theorem place_eq_locate (before : List Char) (pieces : List Piece) :
    place (.behind before) pieces =
      (locate before pieces).map fun (before, piece) => (Position.behind before, piece) := by
  induction pieces generalizing before with
  | nil => rfl
  | cons piece pieces ih =>
      have behind : (Position.behind before).after piece.text = .behind (before ++ piece.text) := by
        rw [← Position.after_first, ← Position.after_append, Position.after_first]
      rw [place, locate, behind, ih, List.map_cons]

theorem ofSource_eq_scanned (source : String) :
    Scan.ofSource source =
      let scan := scanned [] (split source.toList)
      ⟨scan.tokens ++ [Token.endOfInput (.behind source.toList)], scan.errors⟩ := by
  have placed := place_eq_locate [] (split source.toList)
  rw [show Position.behind [] = Position.first from rfl] at placed
  simp only [Scan.ofSource, scanned, placed, List.filterMap_map, Position.after_first]
  rfl

theorem isSome_fault?_iff (piece : Piece) :
    piece.fault?.isSome ↔ piece.form = .illegal ∨ piece.form = .openComment ∨
      piece.form = .token .integer ∧ Text.maxInteger < Text.decimalValue piece.text := by
  unfold fault?
  split
  · next isForm => simp [isForm]
  · next isForm => simp [isForm]
  · next isForm =>
      rw [isForm]
      split
      · next small =>
          simp
          omega
      · next large =>
          simp
          omega
  · next notIllegal notOpen notInteger =>
      simp only [Option.isSome_none, Bool.false_eq_true, false_iff, not_or, not_and]
      exact ⟨notIllegal, notOpen, fun isInteger => absurd isInteger notInteger⟩

/-! ### The order of pieces -/

theorem Cut.open_last (cut : Cut chars pieces) {front back : List Piece}
    (whole : pieces = front ++ piece :: back) (isOpen : piece.form = .openComment) : back = [] := by
  induction cut generalizing front with
  | done => simp at whole
  | @next head rest pieces fits cut ih =>
      cases front with
      | cons first front => exact ih (List.cons.inj whole).2
      | nil =>
          obtain ⟨rfl, rfl⟩ := List.cons.inj whole
          have nothing := fits.text_of_openComment isOpen
          obtain rfl : rest = [] := by simpa using nothing
          rw [cut_iff.mp cut, split]

end Piece

namespace Position

theorem Before.trans {first second third : Position} (one : first.Before second)
    (two : second.Before third) : first.Before third := by
  unfold Before at *
  omega

theorem before_next (position : Position) (char : Char) : position.Before (position.next char) := by
  unfold Before next
  split
  · exact Or.inl (Nat.lt_succ_self _)
  · exact Or.inr ⟨rfl, Nat.lt_succ_self _⟩

theorem behind_before (front : List Char) {more : List Char} (some : more ≠ []) :
    (behind front).Before (behind (front ++ more)) := by
  induction more using List.reverseRecOn with
  | nil => exact absurd rfl some
  | append_singleton more char ih =>
      rw [← List.append_assoc, behind_concat]
      cases more with
      | nil =>
          rw [List.append_nil]
          exact before_next _ _
      | cons first more => exact (ih (by simp)).trans (before_next _ _)

end Position

namespace Piece

theorem Cut.exists_fits (cut : Cut chars pieces) (member : piece ∈ pieces) :
    ∃ left, piece.Fits left := by
  induction cut with
  | done => cases member
  | next fits _ ih =>
      rcases List.mem_cons.mp member with rfl | member
      · exact ⟨_, fits⟩
      · exact ih member

/-- The kinds of words. -/
theorem ofSpelling_mem (word : List Char) :
    TokenKind.ofSpelling word ∈ TokenKind.keywords ++ [.trueWord, .falseWord, .typeName, .objectName] := by
  unfold TokenKind.ofSpelling
  dsimp only
  split
  · next keyword found => exact List.mem_append_left _ (List.mem_of_find?_eq_some found)
  · split_ifs <;> decide

/-- No lexeme is of the kind that ends the tokens. -/
theorem Fits.ne_endOfInput {kind : TokenKind} (fits : piece.Fits chars)
    (isToken : piece.form = .token kind) : kind ≠ .endOfInput := by
  have ofWord (word : List Char) : TokenKind.ofSpelling word ≠ .endOfInput := fun isEnd =>
    absurd (isEnd ▸ ofSpelling_mem word) (by decide)
  cases fits with
  | blank | lineComment | blockComment | openComment | illegal => cases isToken
  | @token pattern text kind' longest isKind =>
      obtain rfl : kind' = kind := PieceForm.token.inj isToken
      cases pattern with
      | word => exact Option.some.inj isKind ▸ ofWord text
      | integer | string =>
          cases isKind
          decide
      | sign =>
          cases isKind
          rintro rfl
          exact absurd longest.matched.1 (by decide)
      | commentOpening | skipped => cases isKind

theorem mem_of_mem_locate {before front : List Char} (member : (front, piece) ∈ locate before pieces) :
    piece ∈ pieces := by
  induction pieces generalizing before with
  | nil => cases member
  | cons first pieces ih =>
      rcases List.mem_cons.mp member with same | member
      · exact (Prod.mk.inj same).2 ▸ List.mem_cons_self
      · exact List.mem_cons_of_mem _ (ih member)

theorem before_of_mem_locate {before front : List Char} (cut : Cut chars pieces)
    (member : (front, piece) ∈ locate before pieces) :
    (∃ more, front = before ++ more) ∧ (Position.behind front).Before (.behind (before ++ chars)) := by
  induction cut generalizing before with
  | done => cases member
  | @next head rest pieces fits cut ih =>
      rcases List.mem_cons.mp member with same | member
      · obtain ⟨rfl, rfl⟩ := Prod.mk.inj same
        have some : piece.text ++ rest ≠ [] := fun none =>
          fits.text_ne_nil (List.append_eq_nil_iff.mp none).1
        exact ⟨⟨[], by simp⟩, Position.behind_before front some⟩
      · obtain ⟨⟨more, rfl⟩, behind⟩ := ih member
        rw [List.append_assoc before head.text rest] at behind
        exact ⟨⟨head.text ++ more, List.append_assoc ..⟩, behind⟩

/-- Pieces begin one behind the other. -/
theorem pairwise_locate (before : List Char) (cut : Cut chars pieces) :
    (locate before pieces).Pairwise fun one two => (Position.behind one.1).Before (.behind two.1) := by
  induction cut generalizing before with
  | done => exact List.Pairwise.nil
  | @next head rest pieces fits cut ih =>
      refine List.Pairwise.cons (fun later member => ?_) (ih _)
      obtain ⟨⟨more, front⟩, _⟩ := before_of_mem_locate cut member
      rw [front, List.append_assoc]
      exact Position.behind_before before fun none =>
        fits.text_ne_nil (List.append_eq_nil_iff.mp none).1

theorem token?_eq_some {position : Position} {token : Token} (isToken : piece.token? position = some token) :
    piece.form = .token token.kind ∧ token.position = position := by
  unfold token? at isToken
  split at isToken
  · next kind isForm =>
      obtain rfl := Option.some.inj isToken
      exact ⟨isForm, rfl⟩
  · cases isToken

end Piece

/-- Scanning by pieces accounts for every piece. -/
theorem Scan.accounts_ofSource (source : String) :
    (Scan.ofSource source).Accounts source.toList (Piece.split source.toList) := by
  have cut := Piece.cut_split source.toList
  rw [Piece.ofSource_eq_scanned]
  refine ⟨cut, cut.flatMap_text, fun _ _ _ => cut.open_last, rfl, rfl,
    fun piece _ => piece.isSome_fault?_iff, fun token member => ?_, ?_⟩
  · rw [List.dropLast_concat] at member
    obtain ⟨⟨front, piece⟩, located, isToken⟩ := List.mem_filterMap.mp member
    have within : piece ∈ Piece.split source.toList := Piece.mem_of_mem_locate located
    obtain ⟨left, fits⟩ := cut.exists_fits within
    exact fits.ne_endOfInput (Piece.token?_eq_some isToken).1
  · rw [List.map_append, List.pairwise_append]
    refine ⟨?_, List.pairwise_singleton .., ?_⟩
    · rw [List.pairwise_map]
      refine List.Pairwise.filterMap _ (fun one two behind first isFirst second isSecond => ?_)
        (Piece.pairwise_locate [] cut)
      rw [(Piece.token?_eq_some isFirst).2, (Piece.token?_eq_some isSecond).2]
      exact behind
    · intro position member last isLast
      obtain ⟨token, isToken, rfl⟩ := List.mem_map.mp member
      obtain ⟨⟨front, piece⟩, located, isToken⟩ := List.mem_filterMap.mp isToken
      rw [(Piece.token?_eq_some isToken).2, List.mem_singleton.mp isLast]
      exact (Piece.before_of_mem_locate cut located).2

/-! ### Scanning with a matcher -/

namespace Piece

theorem split_of_taken {char : Char} {form : PieceForm} (count : Nat)
    (fits : Fits (char :: rest) ⟨form, char :: rest.take count⟩) :
    split (char :: rest) = ⟨form, char :: rest.take count⟩ :: split (rest.drop count) := by
  have whole : char :: rest.take count ++ rest.drop count = char :: rest := by
    rw [List.cons_append, List.take_append_drop]
  have cut := @split_of_fits (rest.drop count) ⟨form, char :: rest.take count⟩ (by rw [whole]; exact fits)
  rw [whole] at cut
  exact cut

/-- What is no token is skipped without a fault. -/
theorem exists_skipped {text : List Char} (longest : Pattern.skipped.Longest chars text) :
    ∃ form, Fits chars ⟨form, text⟩ ∧ (form = .blank ∨ form = .lineComment) := by
  rcases longest.matched with ⟨_, blanks⟩ | ⟨line, rfl, _⟩
  · exact ⟨.blank, .blank longest blanks, Or.inl rfl⟩
  · exact ⟨.lineComment, .lineComment longest, Or.inr rfl⟩

theorem scanned_blockComment {before : List Char} {count : Nat}
    (opening : Pattern.commentOpening.Longest ('(' :: '*' :: rest) ['(', '*'])
    (closed : commentEnd? 1 0 rest = some count) :
    scanned before (split ('(' :: '*' :: rest)) =
      scanned (before ++ '(' :: ('*' :: rest).take (0 + 1 + count))
        (split (('*' :: rest).drop (0 + 1 + count))) := by
  obtain ⟨body, ⟨back, rfl⟩, closes, rfl⟩ := commentEnd?_sound Nat.one_pos closed
  have taken : ('*' :: (body ++ back)).take (0 + 1 + (0 + body.length)) = '*' :: body := by
    rw [Nat.zero_add, Nat.zero_add, Nat.add_comm, List.take_succ_cons, List.take_left]
  have fits : Fits ('(' :: '*' :: (body ++ back))
      ⟨.blockComment, '(' :: ('*' :: (body ++ back)).take (0 + 1 + (0 + body.length))⟩ := by
    rw [taken]
    exact .blockComment opening ⟨back, rfl⟩ closes
  rw [split_of_taken _ fits, scanned_cons]
  rfl

theorem scanned_openComment {before : List Char}
    (opening : Pattern.commentOpening.Longest ('(' :: '*' :: rest) ['(', '*'])
    (endless : commentEnd? 1 0 rest = none) :
    scanned before (split ('(' :: '*' :: rest)) =
      ⟨[], [⟨.behind before, .lexical "EOF in comment."⟩]⟩ := by
  have fits : Fits ('(' :: '*' :: rest) ⟨.openComment, '(' :: ('*' :: rest).take ('*' :: rest).length⟩ := by
    rw [List.take_length]
    exact .openComment opening rfl ((commentEnd?_eq_none_iff Nat.one_pos).mp endless)
  rw [split_of_taken _ fits, scanned_cons, List.drop_length, split]
  rfl

theorem fault?_token (kind : TokenKind) (text : List Char) (position : Position) :
    ((Piece.mk (.token kind) text).fault?.map
        fun message => (⟨position, .lexical message⟩ : Diagnostic)) =
      Matcher.rangeFault? kind text position := by
  by_cases integer : kind = .integer
  · subst integer
    by_cases small : Text.decimalValue text ≤ Text.maxInteger
    · rw [fault?, Matcher.rangeFault?, if_pos small, if_neg (by omega)]
      rfl
    · rw [fault?, Matcher.rangeFault?, if_neg small, if_pos ⟨rfl, by omega⟩]
      rfl
  · rw [Matcher.rangeFault?, if_neg fun both => integer both.1]
    cases kind <;> first | rfl | exact absurd rfl integer

end Piece

namespace Matcher

/-- What takes no more bytes than its first character has nothing after it. -/
theorem take_eq_nil_of_short {char : Char} {count : Nat}
    (short : ¬char.utf8Size < byteLength (char :: rest.take count)) :
    rest.take count = [] ∧ rest.drop count = rest := by
  have alone : rest.take count = [] := by
    cases looked : rest.take count with
    | nil => rfl
    | cons next others =>
        have := next.utf8Size_pos
        rw [looked, byteLength_cons, byteLength_cons] at short
        omega
  have whole := List.take_append_drop count rest
  rw [alone] at whole
  exact ⟨alone, whole⟩

/-- The opening of a comment is its two characters, however far the matcher has looked. -/
theorem opening_of_longest {char : Char} {count : Nat}
    (longest : Pattern.commentOpening.Longest (char :: rest) (char :: rest.take count)) :
    ∃ body, char = '(' ∧ rest = '*' :: body ∧ rest.drop count = body ∧ (count = 1 ∨ body = []) := by
  obtain ⟨rfl, opened⟩ := List.cons.inj longest.matched
  cases rest with
  | nil => simp at opened
  | cons star body =>
      cases count with
      | zero => cases opened
      | succ less =>
          obtain ⟨rfl, taken⟩ := List.cons.inj opened
          have whole := List.take_append_drop less body
          rw [taken] at whole
          exact ⟨body, rfl, rfl, whole, (List.take_eq_nil_iff.mp taken).imp (congrArg Nat.succ) id⟩

theorem scanFrom_eq_scanned (longest : matcher.IsLongest) {front chars : List Char} {base stop : Nat}
    (offset : base + stop = byteLength front) :
    matcher.scanFrom (.ofSource (front ++ chars)) base stop chars =
      Piece.scanned front (Piece.split chars) := by
  generalize size : chars.length = length
  induction length using Nat.strongRecOn generalizing front chars base stop with
  | ind length ih =>
  cases chars with
  | nil =>
      rw [scanFrom, Piece.split]
      rfl
  | cons char rest =>
      have matched := longest char rest
      have position := LineIndex.position_ofSource front (char :: rest)
      -- after a piece, the scan goes on with the rest
      have later (count : Nat) {base' stop' : Nat}
          (offset : base' + stop' = byteLength (front ++ (char :: rest.take count))) :
          matcher.scanFrom (.ofSource (front ++ char :: rest)) base' stop' (rest.drop count) =
            Piece.scanned (front ++ (char :: rest.take count)) (Piece.split (rest.drop count)) := by
        have behind := ih (rest.drop count).length (by
          rw [← size, List.length_drop, List.length_cons]; omega) offset rfl
        rw [List.append_assoc, List.cons_append, List.take_append_drop] at behind
        exact behind
      rw [scanFrom, offset, position]
      cases found : matcher.find char rest with
      | stuck more =>
          rw [found] at matched
          dsimp only at matched ⊢
          -- wherever the matcher is started again, it goes on right after the first character
          have goesOn : (if char.utf8Size < byteLength (char :: rest.take more) then
                matcher.scanFrom (.ofSource (front ++ char :: rest)) (byteLength front + char.utf8Size) 0 rest
              else
                matcher.scanFrom (.ofSource (front ++ char :: rest)) base
                  (stop + byteLength (char :: rest.take more)) (rest.drop more)) =
                Piece.scanned (front ++ [char]) (Piece.split rest) := by
            split
            · refine later 0 ?_
              rw [byteLength_append, byteLength_cons]
              rfl
            · next short =>
                obtain ⟨alone, stays⟩ := take_eq_nil_of_short short
                have ends : base + (stop + byteLength [char]) =
                    byteLength (front ++ (char :: rest.take 0)) := by
                  rw [byteLength_append, ← offset, Nat.add_assoc, List.take_zero]
                rw [alone, stays]
                exact later 0 ends
          rw [goesOn, Piece.split_of_taken 0 (.illegal rfl matched), Piece.scanned_cons]
          have spelled : String.join ([char].map Text.escapeChar) = Text.escapeChar char := by
            simp [String.join]
          simp only [Piece.token?, Piece.fault?, List.take_zero, List.drop_zero, spelled]
          rfl
      | found pattern more =>
          rw [found] at matched
          dsimp only at matched
          cases pattern with
          | commentOpening =>
              obtain ⟨body, rfl, rfl, behind, looked⟩ := opening_of_longest matched
              have opening : Pattern.commentOpening.Longest ('(' :: '*' :: body) ['(', '*'] := by
                rwa [matched.matched] at matched
              dsimp only
              rw [behind]
              cases closed : Piece.commentEnd? 1 0 body with
              | none => rw [Piece.scanned_openComment opening closed]
              | some count =>
                  obtain rfl : more = 1 := by
                    refine looked.resolve_right fun none => ?_
                    rw [none] at closed
                    cases closed
                  have ends : base + (stop + byteLength ('(' :: ('*' :: body).take (0 + 1 + count))) =
                      byteLength (front ++ ('(' :: ('*' :: body).take (0 + 1 + count))) := by
                    rw [byteLength_append]
                    omega
                  rw [Piece.scanned_blockComment opening closed]
                  exact later _ ends
          | skipped =>
              obtain ⟨form, fits, isForm⟩ := Piece.exists_skipped matched
              rw [Piece.split_of_taken _ fits, Piece.scanned_cons]
              dsimp only [Pattern.kind?]
              rw [later _ (by rw [byteLength_append]; omega)]
              rcases isForm with rfl | rfl <;> rfl
          | word | integer | string | sign =>
              rw [Piece.split_of_taken _ (.token matched rfl), Piece.scanned_cons, Piece.fault?_token]
              dsimp only [Pattern.kind?]
              rw [later _ (by rw [byteLength_append]; omega)]
              rfl

theorem scan_eq_ofSource (longest : matcher.IsLongest) (source : String) :
    matcher.scan source = Scan.ofSource source := by
  have scanned := @scanFrom_eq_scanned _ longest [] source.toList 0 0 rfl
  have last := LineIndex.position_ofSource source.toList []
  rw [List.nil_append] at scanned
  rw [List.append_nil] at last
  rw [Piece.ofSource_eq_scanned, scan, last]
  dsimp only
  rw [scanned]

theorem ofKind_of_kind? {pattern : Pattern} {text : List Char} {kind : TokenKind}
    (matched : pattern.Matches text) (isKind : pattern.kind? text = some kind) :
    Pattern.ofKind kind = pattern := by
  cases pattern with
  | word =>
      have ofWord : ∀ kind ∈ TokenKind.keywords ++ [.trueWord, .falseWord, .typeName, .objectName],
          Pattern.ofKind kind = .word := by
        decide
      exact ofWord kind (Option.some.inj isKind ▸ Piece.ofSpelling_mem text)
  | integer | string =>
      cases isKind
      rfl
  | sign sign =>
      have ofSign : ∀ kind ∈ TokenKind.signs, Pattern.ofKind kind = .sign kind := by
        decide
      exact Option.some.inj isKind ▸ ofSign sign matched.1
  | commentOpening | skipped => cases isKind

theorem isLongest_standard : standard.IsLongest := by
  intro char rest
  have fits := Piece.fits_recognize char rest
  dsimp only [standard]
  generalize Piece.recognize char rest = recognized at fits ⊢
  obtain ⟨form, count⟩ := recognized
  generalize text : char :: rest.take count = found at fits
  cases fits with
  | token longest isKind =>
      dsimp only
      rw [ofKind_of_kind? longest.matched isKind, text]
      exact longest
  | blank longest | lineComment longest =>
      rw [← text] at longest
      exact longest
  | blockComment longest | openComment longest =>
      obtain ⟨back, whole⟩ := longest.front
      obtain ⟨rfl, rfl⟩ := List.cons.inj whole
      exact longest
  | illegal _ unmatched => exact unmatched

/-- Whatever finds the longest matches, the scanner around it accounts for all of every text, and there
is only one way to. -/
theorem scan_accounts (longest : matcher.IsLongest) (source : String) :
    ∃ pieces, (matcher.scan source).Accounts source.toList pieces ∧
      (∀ others, Piece.Cut source.toList others → others = pieces) ∧
      matcher.scan source = Scan.ofSource source := by
  refine ⟨Piece.split source.toList, ?_, fun _ => Piece.cut_iff.mp, scan_eq_ofSource longest source⟩
  rw [scan_eq_ofSource longest source]
  exact Scan.accounts_ofSource source

/-- Wide characters, comments in a comment, a quote that opens nothing, an integer that is too large,
and a comment that is never closed. -/
def faultySource : String := "é (* a (* 日 *)*) 12\n\"y 9223372036854775808 (* z"

set_option maxRecDepth 100000 in
theorem scan_accounts_faultySource :
    standard.IsLongest ∧
      (∃ pieces, (standard.scan faultySource).Accounts faultySource.toList pieces ∧
        (∀ others, Piece.Cut faultySource.toList others → others = pieces) ∧
        standard.scan faultySource = Scan.ofSource faultySource) ∧
      (Scan.ofSource faultySource).tokens =
        [⟨.integer, "12", ⟨1, 18⟩⟩, ⟨.objectName, "y", ⟨2, 2⟩⟩,
          ⟨.integer, "9223372036854775808", ⟨2, 4⟩⟩, ⟨.endOfInput, "$", ⟨2, 28⟩⟩] ∧
      (Scan.ofSource faultySource).errors.map Diagnostic.position = [⟨1, 1⟩, ⟨2, 1⟩, ⟨2, 4⟩, ⟨2, 24⟩] :=
  ⟨isLongest_standard, scan_accounts isLongest_standard _, by cbv, by cbv⟩

end Matcher

end CoolLang
