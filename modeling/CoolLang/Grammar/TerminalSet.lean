/-!
Finite sets of terminal symbols, kept as bit masks: terminal `t` is in the set exactly when bit `t`
of the mask is one. Two sets with the same members are equal (`TerminalSet.ext`), and `toList` lists
the members in ascending order, each once.
-/

namespace CoolLang

/-- A terminal symbol, known by its place in the grammar's list of terminals. -/
abbrev Terminal := Nat

structure TerminalSet where
  mask : Nat
deriving DecidableEq, Inhabited

namespace TerminalSet

def contains (set : TerminalSet) (terminal : Terminal) : Bool :=
  set.mask.testBit terminal

instance : Membership Terminal TerminalSet :=
  ⟨fun set terminal => set.contains terminal = true⟩

instance (terminal : Terminal) (set : TerminalSet) : Decidable (terminal ∈ set) :=
  inferInstanceAs (Decidable (set.contains terminal = true))

def empty : TerminalSet := ⟨0⟩

instance : EmptyCollection TerminalSet := ⟨empty⟩

def singleton (terminal : Terminal) : TerminalSet :=
  ⟨1 <<< terminal⟩

def union (left right : TerminalSet) : TerminalSet :=
  ⟨left.mask ||| right.mask⟩

instance : Union TerminalSet := ⟨union⟩

def insert (set : TerminalSet) (terminal : Terminal) : TerminalSet :=
  set ∪ singleton terminal

/-- Adds every listed terminal. -/
def insertAll (set : TerminalSet) (terminals : List Terminal) : TerminalSet :=
  terminals.foldl insert set

def ofList (terminals : List Terminal) : TerminalSet :=
  insertAll ∅ terminals

def isEmpty (set : TerminalSet) : Bool :=
  set.mask == 0

/-- Whether every member of `inner` is a member of `outer`. -/
def isSuperset (outer inner : TerminalSet) : Bool :=
  outer ∪ inner == outer

/-- The members in ascending order. No bit above the binary logarithm of the mask is set. -/
def toList (set : TerminalSet) : List Terminal :=
  (List.range (set.mask.log2 + 1)).filter set.contains

def size (set : TerminalSet) : Nat :=
  set.toList.length

theorem mem_iff {terminal : Terminal} {set : TerminalSet} :
    terminal ∈ set ↔ set.mask.testBit terminal = true := Iff.rfl

@[ext]
theorem ext {left right : TerminalSet}
    (same : ∀ terminal, terminal ∈ left ↔ terminal ∈ right) : left = right := by
  obtain ⟨leftMask⟩ := left
  obtain ⟨rightMask⟩ := right
  congr 1
  apply Nat.eq_of_testBit_eq
  intro terminal
  exact Bool.eq_iff_iff.mpr (same terminal)

@[simp]
theorem not_mem_empty (terminal : Terminal) : terminal ∉ (∅ : TerminalSet) := by
  simp [mem_iff, EmptyCollection.emptyCollection, empty]

@[simp]
theorem mem_singleton {terminal other : Terminal} :
    terminal ∈ singleton other ↔ terminal = other := by
  simp [mem_iff, singleton, Nat.one_shiftLeft, Nat.testBit_two_pow, eq_comm]

@[simp]
theorem mem_union {terminal : Terminal} {left right : TerminalSet} :
    terminal ∈ left ∪ right ↔ terminal ∈ left ∨ terminal ∈ right := by
  simp [mem_iff, Union.union, union, Nat.testBit_or]

@[simp]
theorem mem_insert {terminal other : Terminal} {set : TerminalSet} :
    terminal ∈ set.insert other ↔ terminal ∈ set ∨ terminal = other := by
  simp [insert]

@[simp]
theorem mem_insertAll {terminal : Terminal} {set : TerminalSet} {terminals : List Terminal} :
    terminal ∈ set.insertAll terminals ↔ terminal ∈ set ∨ terminal ∈ terminals := by
  induction terminals generalizing set with
  | nil => simp [insertAll]
  | cons head tail ih =>
      change terminal ∈ (set.insert head).insertAll tail ↔ _
      rw [ih, mem_insert, List.mem_cons, or_assoc]

@[simp]
theorem mem_ofList {terminal : Terminal} {terminals : List Terminal} :
    terminal ∈ ofList terminals ↔ terminal ∈ terminals := by
  simp [ofList]

@[simp]
theorem mem_toList {terminal : Terminal} {set : TerminalSet} :
    terminal ∈ set.toList ↔ terminal ∈ set := by
  unfold toList
  rw [List.mem_filter, List.mem_range]
  constructor
  · exact fun both => both.2
  · intro member
    refine ⟨?_, member⟩
    have bit : 2 ^ terminal ≤ set.mask := Nat.ge_two_pow_of_testBit member
    have nonzero : set.mask ≠ 0 := by
      intro zero
      have := Nat.two_pow_pos terminal
      omega
    exact Nat.lt_succ_of_le ((Nat.le_log2 nonzero).mpr bit)

theorem toList_pairwise_lt (set : TerminalSet) : set.toList.Pairwise (· < ·) :=
  List.Pairwise.filter _ List.pairwise_lt_range

theorem isSuperset_iff {outer inner : TerminalSet} :
    outer.isSuperset inner = true ↔ ∀ terminal, terminal ∈ inner → terminal ∈ outer := by
  unfold isSuperset
  rw [beq_iff_eq]
  constructor
  · intro same terminal member
    rw [← same]
    exact mem_union.mpr (Or.inr member)
  · intro included
    ext terminal
    rw [mem_union]
    exact ⟨fun either => either.elim id (included terminal), Or.inl⟩

end TerminalSet

end CoolLang
