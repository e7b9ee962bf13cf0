import CoolLang.Proofs.Source.LineIndex
import CoolLang.Token.Comment
import Mathlib.Data.List.Basic

/-!
The end of a block comment is where the text closes it for the first time
(`Piece.commentEnd?_eq_some_iff`). What closes a comment is the shortest text that balances it
(`balancesFirst_iff`), and the search through the bytes of the text finds the same end, since no byte of a
longer character is taken for a parenthesis or a star (`blockComment_balances`).
-/

namespace CoolLang

variable {depth : Nat} {text rest : List Char} {char : Char}

theorem commentMarks_other
    (notOpening : ∀ later, char = '(' → rest = '*' :: later → False)
    (notClosing : ∀ later, char = '*' → rest = ')' :: later → False) :
    commentMarks (char :: rest) = .other :: commentMarks rest := by
  rw [commentMarks]
  · exact notOpening
  · exact notClosing

theorem commentMarks_eq_nil : commentMarks text = [] ↔ text = [] := by
  constructor
  · intro none
    unfold commentMarks at none
    split at none <;> first | rfl | contradiction
  · rintro rfl
    rw [commentMarks]

namespace ClosesComment

/-- A comment that is open is not closed by nothing. -/
theorem ne_nil (deep : 0 < depth) (closes : ClosesComment depth text) : text ≠ [] := by
  rintro rfl
  have counted := closes.1
  simp [commentMarks] at counted
  omega

/-- One mark in front of a text that closes a comment. -/
theorem cons_iff {mark : CommentMark} {inner : Nat} (deep : 0 < depth)
    (marks : commentMarks text = mark :: commentMarks rest)
    (counts : depth + [mark].count .opening = inner + [mark].count .closing) :
    ClosesComment depth text ↔ ClosesComment inner rest := by
  obtain ⟨weight, weighed⟩ : ∃ weight : CommentMark → Nat,
      ∀ item front, (mark :: front).count item = weight item + front.count item :=
    ⟨fun item => [mark].count item, fun item front => by rw [← List.count_append]; rfl⟩
  unfold ClosesComment
  rw [marks]
  simp only [weighed, List.count_nil] at counts ⊢
  constructor
  · rintro ⟨total, early⟩
    refine ⟨by omega, fun front within proper => ?_⟩
    have behind := early (mark :: front) (List.cons_prefix_cons.mpr ⟨rfl, within⟩)
      (fun same => proper (List.cons.inj same).2)
    simp only [weighed] at behind
    omega
  · rintro ⟨total, early⟩
    refine ⟨by omega, fun front within proper => ?_⟩
    cases front with
    | nil => simpa using deep
    | cons first front =>
        obtain ⟨rfl, inside⟩ := List.cons_prefix_cons.mp within
        have behind := early front inside (fun same => proper (by rw [same]))
        simp only [weighed]
        omega

theorem opening_iff (deep : 0 < depth) :
    ClosesComment depth ('(' :: '*' :: rest) ↔ ClosesComment (depth + 1) rest :=
  cons_iff deep (by rw [commentMarks]) (by simp)

theorem closing_iff (deep : 1 < depth) :
    ClosesComment depth ('*' :: ')' :: rest) ↔ ClosesComment (depth - 1) rest :=
  cons_iff (by omega) (by rw [commentMarks]) (by simp; omega)

theorem other_iff (deep : 0 < depth)
    (notOpening : ∀ later, char = '(' → rest = '*' :: later → False)
    (notClosing : ∀ later, char = '*' → rest = ')' :: later → False) :
    ClosesComment depth (char :: rest) ↔ ClosesComment depth rest :=
  cons_iff deep (commentMarks_other notOpening notClosing) (by simp)

/-- The outermost opening is closed by one closing and by nothing behind it. -/
theorem last_iff : ClosesComment 1 ('*' :: ')' :: rest) ↔ rest = [] := by
  have marks : commentMarks ('*' :: ')' :: rest) = .closing :: commentMarks rest := by
    rw [commentMarks]
  unfold ClosesComment
  rw [marks]
  constructor
  · rintro ⟨_, early⟩
    by_contra more
    have closed := early [.closing] (List.cons_prefix_cons.mpr ⟨rfl, List.nil_prefix⟩)
      (fun same => more (commentMarks_eq_nil.mp (List.cons.inj same).2.symm))
    simp at closed
  · rintro rfl
    rw [commentMarks]
    refine ⟨by simp, fun front within proper => ?_⟩
    rcases List.prefix_cons_iff.mp within with rfl | ⟨later, rfl, none⟩
    · simp
    · rw [List.prefix_nil.mp none] at proper
      exact absurd rfl proper

end ClosesComment

namespace Piece

/-- A comment ends where a front of the text closes it. -/
theorem commentEnd?_sound {count stop : Nat} (deep : 0 < depth)
    (found : commentEnd? depth count text = some stop) :
    ∃ body, body <+: text ∧ ClosesComment depth body ∧ stop = count + body.length := by
  fun_induction commentEnd? depth count text with
  | case1 depth count rest ih =>
      obtain ⟨body, front, closes, rfl⟩ := ih (by omega) found
      refine ⟨'(' :: '*' :: body, ?_, (ClosesComment.opening_iff deep).mpr closes, ?_⟩
      · exact (List.prefix_append_right_inj ['(', '*']).mpr front
      · simp only [List.length_cons]
        omega
  | case2 depth count rest outermost =>
      obtain rfl : depth = 1 := by omega
      refine ⟨['*', ')'], ⟨rest, rfl⟩, ClosesComment.last_iff.mpr rfl, ?_⟩
      exact (Option.some.inj found).symm
  | case3 depth count rest inside ih =>
      obtain ⟨body, front, closes, rfl⟩ := ih (by omega) found
      refine ⟨'*' :: ')' :: body, ?_, (ClosesComment.closing_iff (by omega)).mpr closes, ?_⟩
      · exact (List.prefix_append_right_inj ['*', ')']).mpr front
      · simp only [List.length_cons]
        omega
  | case4 depth count char rest notOpening notClosing ih =>
      obtain ⟨body, ⟨back, rfl⟩, closes, rfl⟩ := ih deep found
      -- what closes a comment is not empty, so it begins as the text does
      have same {later : List Char} {next : Char} (begins : body = next :: later) :
          body ++ back = next :: (later ++ back) := by
        rw [begins, List.cons_append]
      refine ⟨char :: body, ⟨back, rfl⟩, (ClosesComment.other_iff deep ?_ ?_).mpr closes, ?_⟩
      · exact fun later isChar begins => notOpening _ isChar (same begins)
      · exact fun later isChar begins => notClosing _ isChar (same begins)
      · simp only [List.length_cons]
        omega
  | case5 => cases found

theorem commentEnd?_complete {body : List Char} (deep : 0 < depth) (closes : ClosesComment depth body)
    (back : List Char) (count : Nat) :
    commentEnd? depth count (body ++ back) = some (count + body.length) := by
  fun_induction commentMarks body generalizing depth count with
  | case1 rest ih =>
      rw [List.cons_append, List.cons_append, commentEnd?,
        ih (by omega) ((ClosesComment.opening_iff deep).mp closes)]
      simp only [List.length_cons]
      congr 1
      omega
  | case2 rest ih =>
      rw [List.cons_append, List.cons_append, commentEnd?]
      split
      · next outermost =>
          obtain rfl : depth = 1 := by omega
          rw [ClosesComment.last_iff.mp closes]
          rfl
      · next inside =>
          rw [ih (by omega) ((ClosesComment.closing_iff (by omega)).mp closes)]
          simp only [List.length_cons]
          congr 1
          omega
  | case3 char rest notOpening notClosing ih =>
      replace closes := (ClosesComment.other_iff deep notOpening notClosing).mp closes
      obtain ⟨next, later, rfl⟩ := List.exists_cons_of_ne_nil (closes.ne_nil deep)
      rw [List.cons_append, commentEnd?, ih deep closes]
      · simp only [List.length_cons]
        congr 1
        omega
      · intro after isChar begins
        exact notOpening later isChar (by rw [(List.cons.inj begins).1])
      · intro after isChar begins
        exact notClosing later isChar (by rw [(List.cons.inj begins).1])
  | case4 => exact absurd rfl (closes.ne_nil deep)

theorem commentEnd?_eq_some_iff {count stop : Nat} (deep : 0 < depth) :
    commentEnd? depth count text = some stop ↔
      ∃ body, body <+: text ∧ ClosesComment depth body ∧ stop = count + body.length := by
  constructor
  · exact commentEnd?_sound deep
  · rintro ⟨body, ⟨back, rfl⟩, closes, rfl⟩
    exact commentEnd?_complete deep closes back count

theorem commentEnd?_eq_none_iff {count : Nat} (deep : 0 < depth) :
    commentEnd? depth count text = none ↔ ∀ body, body <+: text → ¬ ClosesComment depth body := by
  rw [Option.eq_none_iff_forall_ne_some]
  constructor
  · intro never body front closes
    exact never _ ((commentEnd?_eq_some_iff deep).mpr ⟨body, front, closes, rfl⟩)
  · intro open_ stop found
    obtain ⟨body, front, closes, _⟩ := commentEnd?_sound deep found
    exact open_ body front closes

end Piece

/-! ### Balance -/

variable {before front : List Char}

namespace Balanced

variable {marks inner later : List CommentMark}

theorem append (balanced : Balanced marks) (balanced' : Balanced later) : Balanced (marks ++ later) := by
  induction balanced with
  | nil => exact balanced'
  | other _ ih => exact .other ih
  | nested inside _ _ ih =>
      rw [List.append_assoc, List.cons_append]
      exact .nested inside ih

/-- What is balanced can be put in anywhere. -/
theorem insert (inside : Balanced inner) (balanced : Balanced marks) {front back : List CommentMark}
    (isSplit : marks = front ++ back) : Balanced (front ++ (inner ++ back)) := by
  induction balanced generalizing front back with
  | nil =>
      obtain ⟨rfl, rfl⟩ := List.append_eq_nil_iff.mp isSplit.symm
      exact inside.append .nil
  | other behind ih =>
      rcases List.cons_eq_append_iff.mp isSplit with ⟨rfl, rfl⟩ | ⟨front, rfl, rfl⟩
      · exact inside.append (.other behind)
      · exact .other (ih rfl)
  | nested inside' behind ih ih' =>
      rcases List.cons_eq_append_iff.mp isSplit with ⟨rfl, rfl⟩ | ⟨front, rfl, isSplit⟩
      · exact inside.append (.nested inside' behind)
      · rcases List.append_eq_append_iff.mp (List.cons.inj isSplit).2 with ⟨middle, rfl, others⟩ | ⟨middle, rfl, rfl⟩
        · rcases List.cons_eq_append_iff.mp others with ⟨rfl, rfl⟩ | ⟨middle, rfl, rfl⟩
          · have grown := nested (inside'.append inside) behind
            simpa using grown
          · have grown := nested inside' (ih' rfl)
            simpa using grown
        · have grown := nested (ih rfl) behind
          simpa using grown

theorem count_closing (balanced : Balanced marks) : marks.count .closing = marks.count .opening := by
  induction balanced with
  | nil => rfl
  | other _ ih => simpa using ih
  | nested _ _ ih ih' => simp [ih, ih', Nat.add_assoc]

end Balanced

/-- What closes a comment balances the openings that are open. -/
theorem ClosesComment.balanced (deep : 0 < depth) (closes : ClosesComment depth text) :
    Balanced (List.replicate depth .opening ++ commentMarks text) := by
  fun_induction commentMarks text generalizing depth with
  | case1 rest ih =>
      have deeper := ih (Nat.succ_pos depth) ((ClosesComment.opening_iff deep).mp closes)
      rwa [List.replicate_succ', List.append_assoc] at deeper
  | case2 rest ih =>
      obtain ⟨inner, rfl⟩ := Nat.exists_eq_add_of_lt deep
      rw [Nat.zero_add] at closes ⊢
      rw [List.replicate_succ', List.append_assoc]
      cases inner with
      | zero =>
          rw [ClosesComment.last_iff.mp closes, commentMarks]
          exact .nested .nil .nil
      | succ inner =>
          have outside := ih inner.succ_pos ((ClosesComment.closing_iff (by omega)).mp closes)
          exact (Balanced.nested .nil .nil).insert outside rfl
  | case3 char rest notOpening notClosing ih =>
      have outside := ih deep ((ClosesComment.other_iff deep notOpening notClosing).mp closes)
      exact (Balanced.other .nil).insert outside rfl
  | case4 => exact absurd rfl (closes.ne_nil deep)

/-- Where no front of a text closes a comment, the text has too few closings. -/
theorem count_closing_of_commentEnd? {count : Nat} (deep : 0 < depth)
    (never : Piece.commentEnd? depth count text = none) :
    (commentMarks text).count .closing < depth + (commentMarks text).count .opening := by
  fun_induction Piece.commentEnd? depth count text with
  | case1 depth count rest ih =>
      have few := ih (Nat.succ_pos depth) never
      rw [commentMarks, List.count_cons_of_ne (by decide), List.count_cons_self]
      omega
  | case2 => cases never
  | case3 depth count rest inside ih =>
      have few := ih (by omega) never
      rw [commentMarks, List.count_cons_self, List.count_cons_of_ne (by decide)]
      omega
  | case4 depth count char rest notOpening notClosing ih =>
      rw [commentMarks_other notOpening notClosing, List.count_cons_of_ne (by decide),
        List.count_cons_of_ne (by decide)]
      exact ih deep never
  | case5 =>
      rw [commentMarks]
      exact deep

theorem ClosesComment.balancesComment (closes : ClosesComment 1 text) : BalancesComment text := by
  rw [BalancesComment, commentMarks]
  exact closes.balanced Nat.one_pos

theorem BalancesComment.exists_closes (balances : BalancesComment text) :
    ∃ front, front <+: text ∧ ClosesComment 1 front := by
  by_contra never
  have isOpen : Piece.commentEnd? 1 0 text = none :=
    (Piece.commentEnd?_eq_none_iff Nat.one_pos).mpr fun front isFront closes => never ⟨front, isFront, closes⟩
  have few := count_closing_of_commentEnd? Nat.one_pos isOpen
  rw [BalancesComment, commentMarks] at balances
  have same := balances.count_closing
  rw [List.count_cons_of_ne (by decide), List.count_cons_self] at same
  omega

theorem balancesFirst_iff : BalancesFirst text front ↔ front <+: text ∧ ClosesComment 1 front := by
  constructor
  · intro isFirst
    obtain ⟨shorter, isShorter, closes⟩ := isFirst.balances.exists_closes
    have long := isFirst.shortest shorter (isShorter.trans isFirst.isFront) closes.balancesComment
    rw [isShorter.eq_of_length_le long] at closes
    exact ⟨isFirst.isFront, closes⟩
  · rintro ⟨isFront, closes⟩
    refine ⟨isFront, closes.balancesComment, fun other isFront' balances => ?_⟩
    obtain ⟨shorter, isShorter, closes'⟩ := balances.exists_closes
    have ends {closing : List Char} (isFront : closing <+: text) (closes : ClosesComment 1 closing) :
        Piece.commentEnd? 1 0 text = some (0 + closing.length) :=
      (Piece.commentEnd?_eq_some_iff Nat.one_pos).mpr ⟨closing, isFront, closes, rfl⟩
    have same := (ends isFront closes).symm.trans (ends (isShorter.trans isFront') closes')
    have short := isShorter.length_le
    have := Option.some.inj same
    omega

theorem exists_balancesFirst (isFront : front <+: text) (balances : BalancesComment front) :
    ∃ first, BalancesFirst text first := by
  obtain ⟨shorter, isShorter, closes⟩ := balances.exists_closes
  exact ⟨shorter, balancesFirst_iff.mpr ⟨isShorter.trans isFront, closes⟩⟩

theorem commentEnd?_of_balancesFirst (isFirst : BalancesFirst text front) :
    Piece.commentEnd? 1 0 text = some front.length := by
  obtain ⟨isFront, closes⟩ := balancesFirst_iff.mp isFirst
  exact (Piece.commentEnd?_eq_some_iff Nat.one_pos).mpr ⟨front, isFront, closes, (Nat.zero_add _).symm⟩

theorem commentEnd?_of_unbalanced (never : ∀ front, front <+: text → ¬ BalancesComment front) :
    Piece.commentEnd? 1 0 text = none :=
  (Piece.commentEnd?_eq_none_iff Nat.one_pos).mpr fun front isFront closes =>
    never front isFront closes.balancesComment

/-! ### Bytes -/

variable {first second : Char} {byte : UInt8} {offset : Nat}

/-- Only a character that is one byte long has a byte below 128. -/
theorem encode_of_mem (member : byte ∈ String.utf8EncodeChar char) (ascii : byte.toNat < 128) :
    String.utf8EncodeChar char = [byte] ∧ char.toNat = byte.toNat := by
  have isVal : char.toNat = char.val.toNat := rfl
  rw [String.utf8EncodeChar] at member ⊢
  split at member
  · next small =>
      obtain rfl := List.mem_singleton.mp member
      rw [UInt8.toNat_ofNat', isVal]
      exact ⟨if_pos small, by omega⟩
  all_goals
    exfalso
    simp only [apply_ite (byte ∈ ·), List.mem_cons, List.not_mem_nil, or_false, ← UInt8.toNat_inj,
      UInt8.toNat_ofNat'] at member
    split at member
    · omega
    · split at member <;> omega

theorem encode_ascii (ascii : char.toNat < 128) : String.utf8EncodeChar char = [char.toUInt8] := by
  have isVal : char.toNat = char.val.toNat := rfl
  rw [String.utf8EncodeChar, if_pos (by omega)]
  rfl

/-- A text whose bytes begin with that of a short character begins with the character. -/
theorem begins_of_bytes {later : List UInt8} (ascii : char.toNat < 128)
    (begins : text.flatMap String.utf8EncodeChar = char.toUInt8 :: later) :
    ∃ rest, text = char :: rest ∧ rest.flatMap String.utf8EncodeChar = later := by
  cases text with
  | nil => cases begins
  | cons next rest =>
      rw [List.flatMap_cons] at begins
      have isByte : char.toUInt8.toNat = char.toNat := by
        rw [Char.toUInt8, UInt32.toNat_toUInt8]
        exact Nat.mod_eq_of_lt (Nat.lt_trans ascii (by decide))
      have isFirst : char.toUInt8 ∈ String.utf8EncodeChar next := by
        cases encoded : String.utf8EncodeChar next with
        | nil =>
            have long := String.length_utf8EncodeChar next
            rw [encoded] at long
            exact absurd long (Nat.ne_of_lt next.utf8Size_pos)
        | cons first others =>
            rw [encoded, List.cons_append] at begins
            exact (List.cons.inj begins).1 ▸ List.mem_cons_self
      obtain ⟨single, same⟩ := encode_of_mem isFirst (isByte ▸ ascii)
      obtain rfl : next = char := Char.toNat_inj.mp (same.trans isByte)
      rw [single] at begins
      exact ⟨rest, rfl, (List.cons.inj begins).2⟩

theorem length_encoded (text : List Char) : (text.flatMap String.utf8EncodeChar).length = byteLength text := by
  simp only [List.length_flatMap, byteLength, String.length_utf8EncodeChar]

/-- The bytes behind a front of a text are those of the rest. -/
theorem getElem?_bytes (before text : List Char) (index : Nat) :
    (before ++ text).utf8Encode[byteLength before + index]? = (text.flatMap String.utf8EncodeChar)[index]? := by
  have listed (bytes : ByteArray) (place : Nat) : bytes[place]? = bytes.data.toList[place]? := by
    rw [Array.getElem?_toList]
    rfl
  rw [listed, List.utf8Encode, List.data_toByteArray, List.flatMap_append, ← length_encoded,
    List.getElem?_append_right (Nat.le_add_right ..), Nat.add_sub_cancel_left]

theorem size_bytes (text : List Char) : text.utf8Encode.size = byteLength text := by
  rw [List.utf8Encode, ← ByteArray.size_data, List.data_toByteArray, List.size_toArray, length_encoded]

theorem pairAt_iff (ascii : first.toNat < 128) (ascii' : second.toNat < 128) :
    pairAt (before ++ text).utf8Encode (byteLength before) first second = true ↔
      ∃ rest, text = first :: second :: rest := by
  rw [pairAt, Bool.and_eq_true, beq_iff_eq, beq_iff_eq]
  constructor
  · rintro ⟨isFirst, isSecond⟩
    rw [← Nat.add_zero (byteLength before), getElem?_bytes] at isFirst
    rw [getElem?_bytes] at isSecond
    rw [← List.head?_eq_getElem?] at isFirst
    obtain ⟨behind, begins⟩ := List.head?_eq_some_iff.mp isFirst
    obtain ⟨rest, rfl, encoded⟩ := begins_of_bytes ascii begins
    rw [begins, List.getElem?_cons_succ, ← encoded, ← List.head?_eq_getElem?] at isSecond
    obtain ⟨_, begins'⟩ := List.head?_eq_some_iff.mp isSecond
    obtain ⟨rest', rfl, _⟩ := begins_of_bytes ascii' begins'
    exact ⟨rest', rfl⟩
  · rintro ⟨rest, rfl⟩
    rw [getElem?_bytes]
    nth_rewrite 1 [← Nat.add_zero (byteLength before)]
    rw [getElem?_bytes, List.flatMap_cons, List.flatMap_cons, encode_ascii ascii, encode_ascii ascii']
    exact ⟨rfl, rfl⟩

/-! ### Going through the bytes -/

/-- Bytes of characters that are longer are passed one by one. -/
theorem blockComment_skip {bytes : ByteArray} {count : Nat}
    (large : ∀ index < count, ∃ byte, bytes[offset + index]? = some byte ∧ 128 ≤ byte.toNat) :
    blockComment bytes depth offset = blockComment bytes depth (offset + count) := by
  induction count generalizing offset with
  | zero => rfl
  | succ count ih =>
      obtain ⟨byte, found, isLarge⟩ := large 0 (Nat.succ_pos count)
      rw [Nat.add_zero] at found
      have inside : offset < bytes.size := by
        by_contra outside
        rw [getElem?_neg bytes offset outside] at found
        cases found
      have noPair {first second : Char} (ascii : first.toUInt8.toNat < 128) :
          ¬ pairAt bytes offset first second = true := by
        rw [pairAt, found, Bool.and_eq_true, beq_iff_eq]
        rintro ⟨same, _⟩
        rw [Option.some.inj same] at isLarge
        omega
      rw [blockComment, if_pos inside, if_neg (noPair (by decide)), if_neg (noPair (by decide)), ih, Nat.add_assoc,
        Nat.add_comm 1]
      intro index early
      rw [Nat.add_assoc, Nat.add_comm 1]
      exact large (index + 1) (Nat.succ_lt_succ early)

theorem lt_size (before : List Char) (char : Char) (rest : List Char) :
    byteLength before < (before ++ char :: rest).utf8Encode.size := by
  rw [size_bytes, byteLength_append, byteLength_cons]
  have := char.utf8Size_pos
  omega

theorem blockComment_opening (depth : Nat) (before rest : List Char) :
    blockComment (before ++ '(' :: '*' :: rest).utf8Encode depth (byteLength before) =
      blockComment (before ++ '(' :: '*' :: rest).utf8Encode (depth + 1) (byteLength before + 2) := by
  rw [blockComment, if_pos (lt_size ..), if_pos ((pairAt_iff (by decide) (by decide)).mpr ⟨rest, rfl⟩)]

theorem blockComment_closing (deep : 0 < depth) (before rest : List Char) :
    blockComment (before ++ '*' :: ')' :: rest).utf8Encode depth (byteLength before) =
      if depth = 1 then .closed (byteLength before + 2)
      else blockComment (before ++ '*' :: ')' :: rest).utf8Encode (depth - 1) (byteLength before + 2) := by
  rw [blockComment, if_pos (lt_size ..), if_neg, if_pos ((pairAt_iff (by decide) (by decide)).mpr ⟨rest, rfl⟩),
    if_neg (Nat.ne_of_gt deep)]
  rw [pairAt_iff (by decide) (by decide)]
  rintro ⟨later, same⟩
  exact absurd (List.cons.inj same).1 (by decide)

theorem blockComment_other
    (notOpening : ∀ later, char = '(' → rest = '*' :: later → False)
    (notClosing : ∀ later, char = '*' → rest = ')' :: later → False) :
    blockComment (before ++ char :: rest).utf8Encode depth (byteLength before) =
      blockComment (before ++ char :: rest).utf8Encode depth (byteLength before + char.utf8Size) := by
  by_cases ascii : char.toNat < 128
  · have long : char.utf8Size = 1 := by
      rw [← String.length_utf8EncodeChar, encode_ascii ascii]
      rfl
    rw [blockComment, if_pos (lt_size ..), if_neg, if_neg, long]
    · rw [pairAt_iff (by decide) (by decide)]
      rintro ⟨later, same⟩
      exact notClosing later (List.cons.inj same).1 (List.cons.inj same).2
    · rw [pairAt_iff (by decide) (by decide)]
      rintro ⟨later, same⟩
      exact notOpening later (List.cons.inj same).1 (List.cons.inj same).2
  · apply blockComment_skip
    intro index early
    rw [← String.length_utf8EncodeChar] at early
    refine ⟨(String.utf8EncodeChar char)[index], ?_, ?_⟩
    · rw [getElem?_bytes, List.flatMap_cons, List.getElem?_append_left early, List.getElem?_eq_getElem early]
    · by_contra small
      have := encode_of_mem (List.getElem_mem early) (Nat.lt_of_not_le small)
      omega

/-- The search in the bytes ends where the search in the characters does. -/
theorem blockComment_eq (deep : 0 < depth) (before text : List Char) :
    blockComment (before ++ text).utf8Encode depth (byteLength before) =
      match Piece.commentEnd? depth before.length text with
      | some stop => .closed (byteLength ((before ++ text).take stop))
      | none => .unclosed (byteLength (before ++ text)) := by
  generalize isCount : before.length = count
  fun_induction Piece.commentEnd? depth count text generalizing before with
  | case1 depth count rest ih =>
      have later := ih (Nat.succ_pos depth) (before ++ ['(', '*']) (by simp [isCount])
      rw [byteLength_append, List.append_assoc] at later
      rw [blockComment_opening]
      exact later
  | case2 depth count rest outermost =>
      obtain rfl : depth = 1 := by omega
      have taken : (before ++ '*' :: ')' :: rest).take (count + 2) = before ++ ['*', ')'] := by
        rw [← isCount, List.take_length_add_append]
        rfl
      rw [blockComment_closing deep, if_pos rfl]
      dsimp only
      rw [taken, byteLength_append]
      rfl
  | case3 depth count rest inside ih =>
      have later := ih (by omega) (before ++ ['*', ')']) (by simp [isCount])
      rw [byteLength_append, List.append_assoc] at later
      rw [blockComment_closing deep, if_neg (by omega)]
      exact later
  | case4 depth count char rest notOpening notClosing ih =>
      have later := ih deep (before ++ [char]) (by simp [isCount])
      rw [byteLength_append, List.append_assoc] at later
      rw [blockComment_other notOpening notClosing]
      exact later
  | case5 depth count =>
      rw [blockComment, if_neg (by rw [List.append_nil, size_bytes]; omega), size_bytes]

/-! ### Both ends are the same -/

theorem blockComment_of_balancesFirst (isFirst : BalancesFirst text front) :
    blockComment text.utf8Encode 1 0 = .closed (byteLength front) := by
  have found := blockComment_eq Nat.one_pos [] text
  rw [List.length_nil, commentEnd?_of_balancesFirst isFirst] at found
  obtain ⟨back, rfl⟩ := isFirst.isFront
  rw [List.nil_append] at found
  dsimp only at found
  rwa [List.take_left] at found

theorem blockComment_of_unbalanced (never : ∀ front, front <+: text → ¬ BalancesComment front) :
    blockComment text.utf8Encode 1 0 = .unclosed (byteLength text) := by
  have found := blockComment_eq Nat.one_pos [] text
  rwa [List.length_nil, commentEnd?_of_unbalanced never] at found

namespace Piece

theorem recognize_comment (text : List Char) :
    recognize '(' ('*' :: text) =
      match commentEnd? 1 0 text with
      | some count => (.blockComment, count + 1)
      | none => (.openComment, text.length + 1) := by
  have isPair : ofTwo? '(' ('*' :: text) = (ofPair? '(' '*' text).map fun recognized =>
      (recognized.1, recognized.2 + 1) := rfl
  rw [recognize, if_neg (by decide), if_neg (by decide), if_neg (by decide), if_neg (by decide), isPair, ofPair?]
  cases commentEnd? 1 0 text <;> rfl

theorem split_of_balancesFirst (isFirst : BalancesFirst text front) :
    split ('(' :: '*' :: text) =
      ⟨.blockComment, '(' :: '*' :: front⟩ :: split (text.drop front.length) := by
  rw [split, recognize_comment, commentEnd?_of_balancesFirst isFirst]
  obtain ⟨back, rfl⟩ := isFirst.isFront
  simp only [List.take_succ_cons, List.take_left, List.drop_succ_cons]

theorem split_of_unbalanced (never : ∀ front, front <+: text → ¬ BalancesComment front) :
    split ('(' :: '*' :: text) = [⟨.openComment, '(' :: '*' :: text⟩] := by
  rw [split, recognize_comment, commentEnd?_of_unbalanced never]
  simp only [List.take_succ_cons, List.take_length, List.drop_succ_cons, List.drop_length, split]

end Piece

/-- The search ends in one of two ways. -/
theorem blockComment_ends (text : List Char) :
    (∃ front, BalancesFirst text front ∧ blockComment text.utf8Encode 1 0 = .closed (byteLength front)) ∨
      (∀ front, front <+: text → ¬ BalancesComment front) ∧
        blockComment text.utf8Encode 1 0 = .unclosed (byteLength text) := by
  by_cases balances : ∃ front, front <+: text ∧ BalancesComment front
  · obtain ⟨_, isFront, balances⟩ := balances
    obtain ⟨front, isFirst⟩ := exists_balancesFirst isFront balances
    exact Or.inl ⟨front, isFirst, blockComment_of_balancesFirst isFirst⟩
  · have never (front : List Char) (isFront : front <+: text) (balances' : BalancesComment front) : False :=
      balances ⟨front, isFront, balances'⟩
    exact Or.inr ⟨never, blockComment_of_unbalanced never⟩

theorem blockComment_ne_underflow : blockComment text.utf8Encode 1 0 ≠ .underflow := by
  rcases blockComment_ends text with ⟨_, _, ends⟩ | ⟨_, ends⟩ <;> rw [ends] <;> nofun

theorem blockComment_eq_closed_iff {length : Nat} :
    blockComment text.utf8Encode 1 0 = .closed length ↔
      ∃ front, BalancesFirst text front ∧ length = byteLength front := by
  constructor
  · intro isClosed
    rcases blockComment_ends text with ⟨front, isFirst, ends⟩ | ⟨_, ends⟩
    · exact ⟨front, isFirst, CommentEnd.closed.inj (isClosed.symm.trans ends)⟩
    · cases isClosed.symm.trans ends
  · rintro ⟨front, isFirst, rfl⟩
    exact blockComment_of_balancesFirst isFirst

theorem blockComment_eq_unclosed_iff {length : Nat} :
    blockComment text.utf8Encode 1 0 = .unclosed length ↔
      (∀ front, front <+: text → ¬ BalancesComment front) ∧ length = byteLength text := by
  constructor
  · intro isUnclosed
    rcases blockComment_ends text with ⟨_, _, ends⟩ | ⟨never, ends⟩
    · cases isUnclosed.symm.trans ends
    · exact ⟨never, CommentEnd.unclosed.inj (isUnclosed.symm.trans ends)⟩
  · rintro ⟨never, rfl⟩
    exact blockComment_of_unbalanced never

theorem utf8ByteSize_eq (text : String) : text.utf8ByteSize = byteLength text.toList := by
  rw [← size_bytes, String.utf8Encode_toList]
  rfl

/-- A front of what comes behind some text ends between two characters. -/
theorem isValid_of_front (before : String) {behind : String} (isFront : front <+: behind.toList) :
    String.Pos.Raw.IsValid (before ++ behind) ⟨before.utf8ByteSize + byteLength front⟩ := by
  obtain ⟨back, isText⟩ := isFront
  have isBehind : behind = String.ofList front ++ String.ofList back := by
    rw [← String.ofList_append, isText, String.ofList_toList]
  have size := utf8ByteSize_eq (String.ofList front)
  rw [String.toList_ofList] at size
  refine String.Pos.Raw.isValid_iff_exists_append.mpr ⟨before ++ String.ofList front, String.ofList back, ?_, ?_⟩
  · rw [String.append_assoc, ← isBehind]
  · rw [String.rawEndPos, String.utf8ByteSize_append, size]

/-- Block comments nest. Behind an opening anywhere in a source, the search through the bytes ends right
behind the shortest text that balances the comment, which is between two characters, and it goes to the end
of the source exactly if there is none; it never meets a closing that closes nothing. The piece that the
source is cut into there has the same end. -/
theorem blockComment_balances (before behind : String) :
    let source := before ++ "(*" ++ behind
    let text := behind.toList
    let found := blockComment behind.toUTF8 1 0
    found ≠ .underflow ∧
    (∀ length, found = .closed length ↔ ∃ front, BalancesFirst text front ∧ length = byteLength front) ∧
    (∀ length, found = .closed length →
      String.Pos.Raw.IsValid source ⟨(before ++ "(*").utf8ByteSize + length⟩) ∧
    (∀ length, found = .unclosed length ↔
      (∀ front, front <+: text → ¬ BalancesComment front) ∧ length = behind.utf8ByteSize) ∧
    (∀ front, BalancesFirst text front → Piece.split ('(' :: '*' :: text) =
      ⟨.blockComment, '(' :: '*' :: front⟩ :: Piece.split (text.drop front.length)) ∧
    ((∀ front, front <+: text → ¬ BalancesComment front) →
      Piece.split ('(' :: '*' :: text) = [⟨.openComment, '(' :: '*' :: text⟩]) := by
  intro source text found
  have ofText : found = blockComment text.utf8Encode 1 0 := by
    rw [String.utf8Encode_toList, ← String.toUTF8_eq_toByteArray]
  rw [ofText, utf8ByteSize_eq behind]
  refine ⟨blockComment_ne_underflow, fun _ => blockComment_eq_closed_iff, fun length isClosed => ?_,
    fun _ => blockComment_eq_unclosed_iff, fun _ => Piece.split_of_balancesFirst, Piece.split_of_unbalanced⟩
  obtain ⟨front, isFirst, rfl⟩ := blockComment_eq_closed_iff.mp isClosed
  exact isValid_of_front (before ++ "(*") isFirst.isFront

/-- The parenthesis right behind an opening closes nothing, and one of the characters takes two bytes. -/
example : blockComment ") é *) x".toUTF8 1 0 = .closed 7 := by
  decide +kernel

end CoolLang
