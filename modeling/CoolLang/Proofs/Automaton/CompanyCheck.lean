import CoolLang.Proofs.Automaton.Company
import CoolLang.Proofs.Grammar.Follow

/-!
Company by calculation. Sets of items are bit masks, in which item `m` of rule `n` is bit `n * width + m`.
A row for each item holds the items next to it. Rows are found in rounds (`Rows.ofGrammar`), but nothing
has to be known about the rounds: `Rows.check` goes through all items once and finds whether the rows
are kept by entering rules and by reading, and whether next to a complete item another one acts. Rows
that pass show that the grammar's table is free of conflicts (`ParseTable.isLR1_of_check`).
-/

namespace CoolLang

variable {α : Type} {grammar : Grammar α}

/-! ### Places -/

/-- An item with the left-hand side of its rule and what stands after its marker. -/
structure Place where
  item : Item
  left : Nonterminal
  rest : List Symbol

/-- The bit of an item. -/
def Item.code (width : Nat) (item : Item) : Nat :=
  item.rule * width + item.marker

theorem Item.code_injective {width : Nat} {item other : Item} (inside : item.marker < width)
    (inside' : other.marker < width) (same : item.code width = other.code width) : item = other := by
  obtain ⟨rule, marker⟩ := item
  obtain ⟨rule', marker'⟩ := other
  simp only [code] at same
  have positive : 0 < width := Nat.zero_lt_of_lt inside
  have sameMarker : marker = marker' := by
    have rests := congrArg (· % width) same
    simpa [Nat.mul_add_mod', Nat.mod_eq_of_lt inside, Nat.mod_eq_of_lt inside'] using rests
  subst sameMarker
  rw [Nat.eq_of_mul_eq_mul_right positive (Nat.add_right_cancel same)]

namespace Place

/-- The items of a rule from a marker on. -/
def ofRule (number : RuleId) (left : Nonterminal) (marker : Nat) : List Symbol → List Place
  | [] => [⟨⟨number, marker⟩, left, []⟩]
  | symbol :: rest =>
      ⟨⟨number, marker⟩, left, symbol :: rest⟩ :: ofRule number left (marker + 1) rest

theorem mem_ofRule (number : RuleId) (left : Nonterminal) {right : List Symbol} (start : Nat)
    {marker : Nat} (inside : marker ≤ right.length) :
    ⟨⟨number, start + marker⟩, left, right.drop marker⟩ ∈ ofRule number left start right := by
  induction right generalizing start marker with
  | nil =>
      cases Nat.le_zero.mp inside
      exact List.mem_singleton.mpr rfl
  | cons symbol rest ih =>
      cases marker with
      | zero => exact List.mem_cons_self
      | succ marker =>
          have later := ih (start + 1) (Nat.le_of_succ_le_succ inside)
          rw [Nat.add_right_comm] at later
          exact List.mem_cons_of_mem _ later

/-- The items of some places, as a mask. -/
def mask (width : Nat) (holds : Place → Bool) : List Place → Nat
  | [] => 0
  | place :: places =>
      if holds place then mask width holds places ||| 1 <<< place.item.code width
      else mask width holds places

theorem testBit_mask {width : Nat} {holds : Place → Bool} {places : List Place} {place : Place}
    (member : place ∈ places) (picked : holds place = true) :
    (mask width holds places).testBit (place.item.code width) = true := by
  induction places with
  | nil => cases member
  | cons first places ih =>
      unfold mask
      rcases List.mem_cons.mp member with rfl | inTail
      · rw [if_pos picked, Nat.testBit_or, Nat.one_shiftLeft, Nat.testBit_two_pow_self, Bool.or_true]
      · split
        · rw [Nat.testBit_or, ih inTail, Bool.true_or]
        · exact ih inTail

end Place

namespace Grammar

def places (grammar : Grammar α) : List Place :=
  grammar.numberedRules.flatMap fun (rule, number) => Place.ofRule number rule.left 0 rule.right

theorem mem_places {number : RuleId} {rule : Rule α} (known : grammar.rule? number = some rule)
    {marker : Nat} (inside : marker ≤ rule.right.length) :
    ⟨⟨number, marker⟩, rule.left, rule.right.drop marker⟩ ∈ grammar.places := by
  refine List.mem_flatMap.mpr ⟨(rule, number), mem_numberedRules.mpr known, ?_⟩
  have member := Place.mem_ofRule number rule.left 0 inside
  rwa [Nat.zero_add] at member

/-- The items with a symbol after the marker. -/
def expecting (grammar : Grammar α) (width : Nat) (symbol : Symbol) : Nat :=
  Place.mask width (fun place => place.rest.head? == some symbol) grammar.places

/-- The items at the start of the rules of a nonterminal. -/
def entering (grammar : Grammar α) (width : Nat) (left : Nonterminal) : Nat :=
  Place.mask width (fun place => place.left == left && place.item.marker == 0) grammar.places

/-- Whether an item acts before one of the terminals, if `follow` says what follows a nonterminal. -/
def acts (follow : FollowSets) (terminals : TerminalSet) (place : Place) : Bool :=
  match place.rest with
  | [] => ((follow.get? place.left).getD ∅).mask &&& terminals.mask != 0
  | .terminal terminal :: _ => terminals.contains terminal
  | .nonterminal _ :: _ => false

def acting (grammar : Grammar α) (width : Nat) (follow : FollowSets) (terminals : TerminalSet) : Nat :=
  Place.mask width (acts follow terminals) grammar.places

end Grammar

/-! ### Rows -/

/-- The items next to each item, by rule and then by marker. -/
abbrev Rows := List (List Nat)

namespace Rows

def row (rows : Rows) (item : Item) : Nat :=
  (rows.getD item.rule []).getD item.marker 0

section Rounds

variable (grammar : Grammar α) (width : Nat)

/-- Adds a set for each nonterminal below `count` that a row expects. -/
def enter (added : Nonterminal → Nat) (row : Nat) : Nat → Nat
  | 0 => row
  | count + 1 =>
      let row := enter added row count
      match row &&& grammar.expecting width (.nonterminal count) with
      | 0 => row
      | _ + 1 => row ||| added count

/-- The start of the rules of a nonterminal, of those that they enter and so on, to a depth that doubles
from one round to the next. -/
def opening : Nat → Nonterminal → Nat
  | 0, left => grammar.entering width left
  | rounds + 1, left =>
      enter grammar width (opening rounds) (opening rounds left) grammar.nonterminals.length

/-- The rows along a right-hand side, from the row in front of it. -/
def along (rounds row : Nat) : List Symbol → List Nat
  | [] => [row]
  | symbol :: rest =>
      let read := (row &&& grammar.expecting width symbol) <<< 1
      row :: along rounds
        (enter grammar width (opening grammar width rounds) read grammar.nonterminals.length) rest

/-- Adds what stands next to a rule to what stands next to the rules that it enters. -/
def widen (rounds : Nat) (beginnings : List Nat) (rule : Rule α) : List Nat :=
  let rows := along grammar width rounds (beginnings.getD rule.left 0) rule.right
  (rows.zip rule.right).foldl
    (fun beginnings (row, symbol) =>
      match symbol with
      | .terminal _ => beginnings
      | .nonterminal nonterminal => beginnings.modify nonterminal (· ||| row))
    beginnings

/-- What stands next to the start of the rules of each nonterminal. -/
def beginnings (rounds : Nat) : Nat → List Nat
  | 0 =>
      enter grammar width (opening grammar width rounds) 1 grammar.nonterminals.length ::
        List.replicate (grammar.nonterminals.length - 1) 0
  | more + 1 => grammar.rules.foldl (widen grammar width rounds) (beginnings rounds more)

def ofGrammar (rounds : Nat) : Rows :=
  grammar.rules.map fun rule =>
    along grammar width rounds ((beginnings grammar width rounds rounds).getD rule.left 0) rule.right

end Rounds

/-! ### Checking rows -/

def within (inner outer : Nat) : Bool :=
  inner ||| outer == outer

theorem testBit_of_within {inner outer bit : Nat} (included : within inner outer = true)
    (held : inner.testBit bit = true) : outer.testBit bit = true := by
  rw [← eq_of_beq included, Nat.testBit_or, held, Bool.true_or]

section Check

variable (grammar : Grammar α) (width : Nat) (follow : FollowSets) (rows : Rows)

/-- The rules that an item with the symbol after its marker enters. -/
def rulesFor : Symbol → List (Rule α × RuleId)
  | .terminal _ => []
  | .nonterminal nonterminal => grammar.rulesOf nonterminal

/-- Whether a row has the start of all rules that its items enter. -/
def isEntered (row : Nat) : Bool :=
  (List.range grammar.nonterminals.length).all fun nonterminal =>
    row &&& grammar.expecting width (.nonterminal nonterminal) == 0 ||
      within (grammar.entering width nonterminal) row

def passes (place : Place) : Bool :=
  let row := rows.row place.item
  isEntered grammar width row && place.item.marker < width &&
    match place.rest with
    | [] =>
        within (row &&& grammar.acting width follow ((follow.get? place.left).getD ∅))
          (1 <<< place.item.code width)
    | symbol :: _ =>
        within ((row &&& grammar.expecting width symbol) <<< 1) (rows.row place.item.advance) &&
          (rulesFor grammar symbol).all fun (_, number) => within row (rows.row ⟨number, 0⟩)

def check : Bool :=
  (rows.row ⟨RuleId.augmented, 0⟩).testBit 0 &&
    grammar.places.all (passes grammar width follow rows)

end Check

/-! ### Rows that pass -/

/-- Whether the row of an item of the grammar has another item. -/
def Beside (grammar : Grammar α) (width : Nat) (rows : Rows) (item other : Item) : Prop :=
  (∃ rule, grammar.rule? item.rule = some rule ∧ item.marker ≤ rule.right.length) ∧
    (rows.row item).testBit (other.code width) = true

section Passing

variable {width : Nat} {follow : FollowSets} {rows : Rows} {item other : Item} {symbol : Symbol}
  {number : RuleId} {rule : Rule α}

private theorem exists_place (isNext : item.next? grammar = some symbol) :
    ∃ rule, grammar.rule? item.rule = some rule ∧ item.marker < rule.right.length ∧
      ∃ rest, ⟨item, rule.left, symbol :: rest⟩ ∈ grammar.places := by
  cases known : grammar.rule? item.rule with
  | none =>
      rw [Item.next?, Grammar.right, known] at isNext
      cases isNext
  | some rule =>
      rw [Item.next?, Grammar.right_eq known] at isNext
      obtain ⟨inside, same⟩ := List.getElem?_eq_some_iff.mp isNext
      have member := Grammar.mem_places known (Nat.le_of_lt inside)
      rw [List.drop_eq_getElem_cons inside, same] at member
      exact ⟨rule, rfl, inside, _, member⟩

private theorem testBit_expecting (isNext : item.next? grammar = some symbol) :
    (grammar.expecting width symbol).testBit (item.code width) = true := by
  obtain ⟨rule, _, _, rest, member⟩ := exists_place isNext
  apply Place.testBit_mask member
  exact beq_self_eq_true (some symbol)

private theorem testBit_entering (known : grammar.rule? number = some rule) :
    (grammar.entering width rule.left).testBit (Item.code width ⟨number, 0⟩) = true := by
  have member := Grammar.mem_places known (Nat.zero_le _)
  apply Place.testBit_mask member
  simp

private theorem testBit_acting {terminals : TerminalSet} {terminal : Terminal}
    (inTerminals : terminal ∈ terminals)
    (bound : ∀ {terminal nonterminal}, grammar.Follows terminal nonterminal →
      terminal ∈ (follow.get? nonterminal).getD ∅)
    (acts : item.Acts grammar terminal) :
    (grammar.acting width follow terminals).testBit (item.code width) = true := by
  cases acts with
  | shift isNext =>
      obtain ⟨rule, _, _, rest, member⟩ := exists_place isNext
      apply Place.testBit_mask member
      exact inTerminals
  | @complete number rule known follows =>
      have member := Grammar.mem_places known (Nat.le_refl _)
      apply Place.testBit_mask member
      rw [List.drop_length, Grammar.acts]
      have both : (((follow.get? rule.left).getD ∅).mask &&& terminals.mask).testBit terminal = true := by
        rw [Nat.testBit_and, Bool.and_eq_true]
        exact ⟨bound follows, inTerminals⟩
      rw [bne_iff_ne]
      intro zero
      rw [zero, Nat.zero_testBit] at both
      cases both

private theorem passes_of_check (checked : check grammar width follow rows = true) {place : Place}
    (member : place ∈ grammar.places) : passes grammar width follow rows place = true := by
  rw [check, Bool.and_eq_true, List.all_eq_true] at checked
  exact checked.2 place member

private theorem Beside.entered (checked : check grammar width follow rows = true)
    (beside : Beside grammar width rows item other) (wellFormed : grammar.WellFormed)
    (isNext : other.next? grammar = some (.nonterminal rule.left))
    (known : grammar.rule? number = some rule) :
    Beside grammar width rows item ⟨number, 0⟩ := by
  obtain ⟨⟨outer, isOuter, inside⟩, held⟩ := beside
  refine ⟨⟨outer, isOuter, inside⟩, ?_⟩
  have passed := passes_of_check checked (Grammar.mem_places isOuter inside)
  simp only [passes, isEntered, Bool.and_eq_true, List.all_eq_true, List.mem_range,
    Bool.or_eq_true, beq_iff_eq] at passed
  rcases passed.1.1 rule.left (wellFormed.left_lt known) with unexpected | included
  · have both := congrArg (·.testBit (other.code width)) unexpected
    simp only [Nat.testBit_and, held, testBit_expecting isNext, Nat.zero_testBit] at both
    cases both
  · exact testBit_of_within included (testBit_entering known)

theorem company_of_check (wellFormed : grammar.WellFormed)
    (checked : check grammar width follow rows = true) :
    grammar.Company (Beside grammar width rows) where
  start := by
    refine ⟨⟨_, wellFormed.rule?_augmented, Nat.zero_le _⟩, ?_⟩
    rw [check, Bool.and_eq_true] at checked
    simpa [Item.code, RuleId.augmented] using checked.1
  enter_left := by
    intro item other number rule beside isNext known
    refine ⟨⟨rule, known, Nat.zero_le _⟩, ?_⟩
    obtain ⟨outer, _, _, rest, member⟩ := exists_place isNext
    have passed := passes_of_check checked member
    simp only [passes, Bool.and_eq_true, List.all_eq_true] at passed
    refine testBit_of_within (passed.2.2 (rule, number) ?_) beside.2
    exact List.mem_filter.mpr ⟨Grammar.mem_numberedRules.mpr known, beq_self_eq_true _⟩
  enter_right := by
    intro item other number rule beside isNext known
    exact beside.entered checked wellFormed isNext known
  read := by
    intro item other symbol beside isNext isNext'
    obtain ⟨rule, known, inside, rest, member⟩ := exists_place isNext
    refine ⟨⟨rule, known, inside⟩, ?_⟩
    have passed := passes_of_check checked member
    simp only [passes, Bool.and_eq_true] at passed
    apply testBit_of_within passed.2.1
    have shifted : other.advance.code width = other.code width + 1 := rfl
    rw [shifted, Nat.testBit_shiftLeft]
    simp [beside.2, testBit_expecting isNext']

theorem decided_of_check (checked : check grammar width follow rows = true)
    (bound : ∀ {terminal nonterminal}, grammar.Follows terminal nonterminal →
      terminal ∈ (follow.get? nonterminal).getD ∅) :
    grammar.Decided (Beside grammar width rows) := by
  intro number rule known other terminal beside follows acts
  have inWidth : ∀ {number rule marker}, grammar.rule? number = some rule →
      marker ≤ rule.right.length → marker < width := by
    intro number rule marker known inside
    have passed := passes_of_check checked (Grammar.mem_places known inside)
    simp only [passes, Bool.and_eq_true, decide_eq_true_eq] at passed
    exact passed.1.2
  have inWidth' : other.marker < width := by
    cases acts with
    | shift isNext =>
        obtain ⟨rule, known, inside, _⟩ := exists_place isNext
        exact inWidth known (Nat.le_of_lt inside)
    | complete known _ => exact inWidth known (Nat.le_refl _)
  have passed := passes_of_check checked (Grammar.mem_places known (Nat.le_refl _))
  rw [List.drop_length] at passed
  simp only [passes, Bool.and_eq_true] at passed
  -- the only item in the row that acts is the complete one itself
  have alone : (1 <<< Item.code width ⟨number, rule.right.length⟩).testBit (other.code width) =
      true := by
    apply testBit_of_within passed.2
    rw [Nat.testBit_and, beside.2, testBit_acting (bound follows) bound acts]
    rfl
  rw [Nat.one_shiftLeft, Nat.testBit_two_pow, decide_eq_true_eq] at alone
  exact (Item.code_injective (inWidth known (Nat.le_refl _)) inWidth' alone).symm

end Passing

end Rows

theorem ParseTable.isLR1_of_check (wellFormed : grammar.WellFormed) {width : Nat}
    {follow : FollowSets} {rows : Rows}
    (bound : ∀ {terminal nonterminal}, grammar.Follows terminal nonterminal →
      terminal ∈ (follow.get? nonterminal).getD ∅)
    (checked : rows.check grammar width follow = true) : (generate grammar).isLR1 = true :=
  isLR1_of_company wellFormed (Rows.company_of_check wellFormed checked)
    (Rows.decided_of_check checked bound)

end CoolLang
