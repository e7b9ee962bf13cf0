import CoolLang.Token.Piece

/-!
When a block comment is closed. The text behind an opening is read from left to right as openings,
closings and other characters, which do not overlap; it closes the comment if its last closing, and no
closing before that, makes up for all openings. That is the shortest text that is balanced, the opening
included (`BalancesFirst`). The end of a comment is looked for in the bytes of the text, which know nothing
of characters (`blockComment`).
-/

namespace CoolLang

inductive CommentMark where
  | opening
  | closing
  | other
deriving DecidableEq

def commentMarks : List Char → List CommentMark
  | '(' :: '*' :: rest => .opening :: commentMarks rest
  | '*' :: ')' :: rest => .closing :: commentMarks rest
  | _ :: rest => .other :: commentMarks rest
  | [] => []

/-- Whether a text that begins `depth` openings deep closes all of them with its last mark. -/
def ClosesComment (depth : Nat) (text : List Char) : Prop :=
  let marks := commentMarks text
  marks.count .closing = depth + marks.count .opening ∧
    ∀ front, front <+: marks → front ≠ marks → front.count .closing < depth + front.count .opening

/-- Whether each opening has a closing of its own behind it, and each closing an opening before it. -/
inductive Balanced : List CommentMark → Prop where
  | nil : Balanced []
  | other {marks : List CommentMark} (behind : Balanced marks) : Balanced (.other :: marks)
  | nested {inner marks : List CommentMark} (inside : Balanced inner) (behind : Balanced marks) :
      Balanced (.opening :: inner ++ .closing :: marks)

/-- Whether a comment that has just been opened, with the text behind the opening, is balanced. -/
def BalancesComment (text : List Char) : Prop :=
  Balanced (commentMarks ('(' :: '*' :: text))

/-- Whether of all fronts of a text that balance a comment this is the shortest. -/
structure BalancesFirst (text front : List Char) : Prop where
  isFront : front <+: text
  balances : BalancesComment front
  shortest : ∀ other, other <+: text → BalancesComment other → front.length ≤ other.length

/-- How the search for the end of a comment ends, with the number of bytes that it takes. -/
inductive CommentEnd where
  | closed (length : Nat)
  /-- All bytes have been gone through. -/
  | unclosed (length : Nat)
  /-- A closing has been found that closes nothing. -/
  | underflow
deriving DecidableEq

/-- Whether two characters stand at an offset, which are one byte long each. -/
def pairAt (bytes : ByteArray) (offset : Nat) (first second : Char) : Bool :=
  bytes[offset]? == some first.toUInt8 && bytes[offset + 1]? == some second.toUInt8

/-- Looks for the end of a comment in the bytes behind its opening, from an offset on and `depth` openings
deep there. -/
def blockComment (bytes : ByteArray) (depth offset : Nat) : CommentEnd :=
  if offset < bytes.size then
    if pairAt bytes offset '(' '*' then blockComment bytes (depth + 1) (offset + 2)
    else if pairAt bytes offset '*' ')' then
      if depth = 0 then .underflow
      else if depth = 1 then .closed (offset + 2)
      else blockComment bytes (depth - 1) (offset + 2)
    else blockComment bytes depth (offset + 1)
  else .unclosed bytes.size
termination_by bytes.size - offset

end CoolLang
