import CoolLang.Source.LineIndex
import Mathlib.Data.List.Basic
import Mathlib.Data.List.Induction
import Mathlib.Data.List.Count

/-!
A line index finds the position behind any front of its text (`LineIndex.position_ofSource`), which is
also the one that counting character by character comes to (`Position.after_first`).
-/

namespace CoolLang

variable {front back : List Char}

/-! ### Byte offsets -/

@[simp]
theorem byteLength_cons (char : Char) (chars : List Char) :
    byteLength (char :: chars) = char.utf8Size + byteLength chars := by
  rw [byteLength, List.map_cons, List.sum_cons, byteLength]

@[simp]
theorem byteLength_append (front back : List Char) :
    byteLength (front ++ back) = byteLength front + byteLength back := by
  rw [byteLength, List.map_append, List.sum_append, byteLength, byteLength]

theorem takeBytes_append (front back : List Char) :
    takeBytes (byteLength front) (front ++ back) = front := by
  induction front with
  | nil =>
      cases back with
      | nil => rfl
      | cons char rest =>
          have := char.utf8Size_pos
          rw [List.nil_append, takeBytes, if_neg]
          simp only [byteLength, List.map_nil, List.sum_nil]
          omega
  | cons char front ih =>
      rw [byteLength_cons, List.cons_append, takeBytes, if_pos (Nat.le_add_right ..),
        Nat.add_sub_cancel_left, ih]

theorem dropBytes_append (front back : List Char) :
    dropBytes (byteLength front) (front ++ back) = back := by
  induction front with
  | nil =>
      cases back with
      | nil => rfl
      | cons char rest =>
          have := char.utf8Size_pos
          rw [List.nil_append, dropBytes, if_neg]
          simp only [byteLength, List.map_nil, List.sum_nil]
          omega
  | cons char front ih =>
      rw [byteLength_cons, List.cons_append, dropBytes, if_pos (Nat.le_add_right ..),
        Nat.add_sub_cancel_left, ih]

/-! ### Positions -/

namespace Position

theorem behind_concat (front : List Char) (char : Char) :
    behind (front ++ [char]) = (behind front).next char := by
  unfold behind next
  by_cases feed : char = '\n'
  · subst feed
    simp
    omega
  · simp [feed]
    omega

theorem after_first (front : List Char) : first.after front = behind front := by
  induction front using List.reverseRecOn with
  | nil => rfl
  | append_singleton front char ih =>
      rw [after_append, ih, behind_concat]
      rfl

end Position

namespace LineIndex

theorem startsAfter_append (offset : Nat) (front back : List Char) :
    startsAfter offset (front ++ back) =
      startsAfter offset front ++ startsAfter (offset + byteLength front) back := by
  induction front generalizing offset with
  | nil => rfl
  | cons char front ih =>
      have later : offset + byteLength (char :: front) =
          offset + char.utf8Size + byteLength front := by
        rw [byteLength_cons, Nat.add_assoc]
      simp only [List.cons_append, startsAfter, ih, later]
      split
      · rw [List.cons_append]
      · rfl

theorem lt_of_mem_startsAfter {offset start : Nat} {chars : List Char}
    (member : start ∈ startsAfter offset chars) : offset < start := by
  induction chars generalizing offset with
  | nil => cases member
  | cons char chars ih =>
      have := char.utf8Size_pos
      rw [startsAfter] at member
      split at member
      · rcases List.mem_cons.mp member with rfl | member
        · omega
        · have := ih member
          omega
      · have := ih member
        omega

/-- The start of the line that a front of the text ends in, and what stands before and in that line. -/
theorem exists_start (front : List Char) :
    ∃ earlier start lines line, 0 :: startsAfter 0 front = earlier ++ [start] ∧
      (∀ other ∈ earlier, other < start) ∧ front = lines ++ line ∧ byteLength lines = start ∧
      Position.behind front = ⟨earlier.length + 1, line.length + 1⟩ := by
  induction front using List.reverseRecOn with
  | nil => exact ⟨[], 0, [], [], rfl, by simp, rfl, rfl, rfl⟩
  | append_singleton front char ih =>
      obtain ⟨earlier, start, lines, line, starts, below, rfl, isStart, behind⟩ := ih
      rw [startsAfter_append, ← List.cons_append, starts, Position.behind_concat, behind,
        Position.next, Nat.zero_add, startsAfter]
      by_cases feed : char = '\n'
      · subst feed
        refine ⟨earlier ++ [start], _, lines ++ line ++ ['\n'], [], rfl, ?_, by simp, ?_, by simp⟩
        · intro other member
          have := Char.utf8Size_pos '\n'
          rw [byteLength_append, isStart]
          rcases List.mem_append.mp member with member | member
          · have := below other member
            omega
          · rw [List.mem_singleton.mp member]
            omega
        · rw [byteLength_append]
          rfl
      · refine ⟨earlier, start, lines, line ++ [char], ?_, below, by simp, isStart, ?_⟩
        · rw [if_neg feed, startsAfter, List.append_nil]
        · rw [if_neg feed, List.length_append, List.length_singleton]

/-- An offset is in the line whose start is the last one that is not behind it. -/
theorem lineOf_eq {lines : LineIndex} {earlier later : List Nat} {start offset : Nat}
    (starts : lines.starts = earlier ++ start :: later) (below : ∀ other ∈ earlier, other < start)
    (within : start ≤ offset) (behind : ∀ other ∈ later, offset < other) :
    lines.lineOf offset = earlier.length := by
  rw [lineOf, starts]
  by_cases begins : start = offset
  · subst begins
    have found : (earlier ++ start :: later).idxOf? start = some earlier.length := by
      rw [List.idxOf?_eq_some_iff]
      refine ⟨by simp, by simp, fun place before same => ?_⟩
      rw [List.getElem_append_left before] at same
      exact absurd (below _ (List.getElem_mem before)) (by omega)
    rw [found]
  · have absent : offset ∉ earlier ++ start :: later := by
      intro member
      rcases List.mem_append.mp member with member | member
      · have := below _ member
        omega
      · rcases List.mem_cons.mp member with same | member
        · exact begins same.symm
        · exact absurd (behind _ member) (Nat.lt_irrefl _)
    have passed : (earlier ++ start :: later).takeWhile (· < offset) = earlier ++ [start] := by
      rw [List.takeWhile_append_of_pos]
      · rw [List.takeWhile_cons, if_pos (by simp; omega)]
        cases later with
        | nil => rfl
        | cons next later =>
            have := behind next List.mem_cons_self
            rw [List.takeWhile_cons, if_neg (by simp; omega)]
      · intro other member
        have := below other member
        simp
        omega
    rw [List.idxOf?_eq_none_iff.mpr absent]
    simp only [passed, List.length_append, List.length_singleton, Nat.add_sub_cancel]

theorem position_ofSource (front back : List Char) :
    (ofSource (front ++ back)).position (byteLength front) = Position.behind front := by
  obtain ⟨earlier, start, lines, line, starts, below, rfl, isStart, behind⟩ := exists_start front
  have all : (ofSource (lines ++ line ++ back)).starts =
      earlier ++ start :: startsAfter (byteLength (lines ++ line)) back := by
    simp only [ofSource]
    rw [startsAfter_append, ← List.cons_append, starts, Nat.zero_add, List.append_assoc,
      List.singleton_append]
  have isLine := lineOf_eq all below (by rw [byteLength_append]; omega)
    fun other member => lt_of_mem_startsAfter member
  rw [behind, position, isLine, all]
  have width : byteLength (lines ++ line) - start = byteLength line := by
    rw [byteLength_append, isStart, Nat.add_sub_cancel_left]
  simp only [List.getElem?_append_right (Nat.le_refl _), Nat.sub_self, List.getElem?_cons_zero,
    Option.getD_some, width]
  rw [ofSource, List.append_assoc, ← isStart, dropBytes_append, takeBytes_append]

end LineIndex

end CoolLang
