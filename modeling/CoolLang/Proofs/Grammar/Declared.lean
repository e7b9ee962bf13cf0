import Mathlib.Data.List.Nodup
import CoolLang.Grammar.Draft

/-!
Declared grammars are well formed. Every declaration keeps a draft regular, and finishing a regular
draft adds the augmented rule, so that every grammar built by declarations satisfies
`Grammar.WellFormed`. What well-formedness says about rules by number follows.
-/

namespace CoolLang

variable {α : Type}

/-! ### Drafts -/

namespace Draft

def Usable (draft : Draft α) (symbol : Symbol) : Prop :=
  draft.isUsable symbol = true

/-- What every sequence of declarations keeps. -/
structure Regular (draft : Draft α) : Prop where
  terminals_head : draft.terminals.head? = some "$"
  nonterminals_head : draft.nonterminals.head? = some "$start"
  names_nodup : (draft.terminals ++ draft.nonterminals).Nodup
  start_usable : ∀ start, draft.start = some start → draft.Usable (.nonterminal start)
  left_usable : ∀ rule ∈ draft.rules, draft.Usable (.nonterminal rule.left)
  right_usable : ∀ rule ∈ draft.rules, ∀ symbol ∈ rule.right, draft.Usable symbol
  action_isSome : ∀ rule ∈ draft.rules, rule.action.isSome
  sides_nodup : (draft.rules.map fun rule => (rule.left, rule.right)).Nodup

theorem Regular.initial : (Draft.initial : Draft α).Regular where
  terminals_head := rfl
  nonterminals_head := rfl
  names_nodup := by simp [Draft.initial]
  start_usable := by intro start impossible; cases impossible
  left_usable := by intro rule impossible; cases impossible
  right_usable := by intro rule impossible; cases impossible
  action_isSome := by intro rule impossible; cases impossible
  sides_nodup := List.nodup_nil

/-- A usable symbol stays usable when more symbols are declared. -/
private theorem usable_mono {draft next : Draft α} {symbol : Symbol}
    (terminals : draft.terminals.length ≤ next.terminals.length)
    (nonterminals : draft.nonterminals.length ≤ next.nonterminals.length)
    (usable : draft.Usable symbol) : next.Usable symbol := by
  cases symbol with
  | terminal terminal =>
      simp only [Usable, isUsable, Bool.and_eq_true, decide_eq_true_eq] at usable ⊢
      exact ⟨usable.1, Nat.lt_of_lt_of_le usable.2 terminals⟩
  | nonterminal nonterminal =>
      simp only [Usable, isUsable, isUsableNonterminal, Bool.and_eq_true,
        decide_eq_true_eq] at usable ⊢
      exact ⟨usable.1, Nat.lt_of_lt_of_le usable.2 nonterminals⟩

private theorem checkName_ok {draft : Draft α} {name : String}
    (checked : draft.checkName name = .ok ()) :
    name ∉ draft.terminals ∧ name ∉ draft.nonterminals := by
  unfold checkName at checked
  split at checked
  · cases checked
  · split at checked
    · cases checked
    · rename_i undeclared
      simpa [isDeclaredName] using undeclared

private theorem head?_append_singleton {names : List String} {name first : String}
    (head : names.head? = some first) : (names ++ [name]).head? = some first := by
  rw [List.head?_append, head, Option.some_or]

/-- More names leave a draft regular when they are new and come last. -/
private theorem Regular.extend {draft next : Draft α} (regular : draft.Regular)
    (terminals_head : next.terminals.head? = some "$")
    (nonterminals_head : next.nonterminals.head? = some "$start")
    (names_nodup : (next.terminals ++ next.nonterminals).Nodup)
    (terminals : draft.terminals.length ≤ next.terminals.length)
    (nonterminals : draft.nonterminals.length ≤ next.nonterminals.length)
    (rules : next.rules = draft.rules) (start : next.start = draft.start) : next.Regular where
  terminals_head := terminals_head
  nonterminals_head := nonterminals_head
  names_nodup := names_nodup
  start_usable := by
    intro symbol chosen
    exact usable_mono terminals nonterminals (regular.start_usable symbol (start ▸ chosen))
  left_usable := by
    intro rule member
    exact usable_mono terminals nonterminals (regular.left_usable rule (rules ▸ member))
  right_usable := by
    intro rule member symbol inRight
    exact usable_mono terminals nonterminals
      (regular.right_usable rule (rules ▸ member) symbol inRight)
  action_isSome := by rw [rules]; exact regular.action_isSome
  sides_nodup := by rw [rules]; exact regular.sides_nodup

theorem Regular.addTerminal {draft next : Draft α} {name : String} {number : Terminal}
    (regular : draft.Regular) (added : draft.addTerminal name = .ok (number, next)) :
    next.Regular := by
  unfold Draft.addTerminal at added
  cases checked : draft.checkName name with
  | error error => rw [checked] at added; cases added
  | ok passed =>
      rw [checked] at added
      cases added
      obtain ⟨newTerminal, newNonterminal⟩ := checkName_ok checked
      refine regular.extend (head?_append_singleton regular.terminals_head)
        regular.nonterminals_head ?_ (by simp) (Nat.le_refl _) rfl rfl
      have names := regular.names_nodup
      simp only [List.append_assoc, List.singleton_append]
      rw [List.nodup_middle, List.nodup_cons]
      exact ⟨by simp [newTerminal, newNonterminal], names⟩

theorem Regular.addNonterminal {draft next : Draft α} {name : String} {number : Nonterminal}
    (regular : draft.Regular) (added : draft.addNonterminal name = .ok (number, next)) :
    next.Regular := by
  unfold Draft.addNonterminal at added
  cases checked : draft.checkName name with
  | error error => rw [checked] at added; cases added
  | ok passed =>
      rw [checked] at added
      cases added
      obtain ⟨newTerminal, newNonterminal⟩ := checkName_ok checked
      refine regular.extend regular.terminals_head
        (head?_append_singleton regular.nonterminals_head) ?_ (Nat.le_refl _) (by simp) rfl rfl
      have names := regular.names_nodup
      simp only [← List.append_assoc]
      rw [List.nodup_append]
      refine ⟨names, by simp, ?_⟩
      intro known member other isName
      rw [List.mem_singleton] at isName
      subst other
      rcases List.mem_append.mp member with inTerminals | inNonterminals
      · exact fun same => newTerminal (same ▸ inTerminals)
      · exact fun same => newNonterminal (same ▸ inNonterminals)

theorem Regular.addRule {draft next : Draft α} {left : Nonterminal} {right : List Symbol}
    {action : α} {number : RuleId} (regular : draft.Regular)
    (added : draft.addRule left right action = .ok (number, next)) : next.Regular := by
  unfold Draft.addRule at added
  split at added
  · cases added
  · rename_i known
    split at added
    · cases added
    · rename_i fresh
      cases added
      simp only [Bool.or_eq_true, Bool.not_eq_true', not_or, Bool.not_eq_false,
        List.all_eq_true] at known
      refine ⟨regular.terminals_head, regular.nonterminals_head, regular.names_nodup,
        regular.start_usable, ?_, ?_, ?_, ?_⟩
      · intro rule member
        rcases List.mem_append.mp member with old | new
        · exact regular.left_usable rule old
        · cases List.mem_singleton.mp new
          exact known.1
      · intro rule member
        rcases List.mem_append.mp member with old | new
        · exact regular.right_usable rule old
        · cases List.mem_singleton.mp new
          exact known.2
      · intro rule member
        rcases List.mem_append.mp member with old | new
        · exact regular.action_isSome rule old
        · cases List.mem_singleton.mp new
          rfl
      · rw [List.map_append, List.nodup_append]
        refine ⟨regular.sides_nodup, by simp, ?_⟩
        intro known member other isNew same
        obtain ⟨rule, present, sides⟩ := List.mem_map.mp member
        simp only [List.map_cons, List.map_nil, List.mem_singleton] at isNew
        subst same isNew
        cases sides
        apply fresh
        exact List.any_eq_true.mpr ⟨rule, present, by simp⟩

theorem Regular.setStart {draft next : Draft α} {symbol : Nonterminal}
    (regular : draft.Regular) (set : draft.setStart symbol = .ok next) : next.Regular := by
  unfold Draft.setStart at set
  split at set
  · rename_i usable
    cases set
    refine ⟨regular.terminals_head, regular.nonterminals_head, regular.names_nodup, ?_,
      regular.left_usable, regular.right_usable, regular.action_isSome, regular.sides_nodup⟩
    intro start chosen
    cases chosen
    exact usable
  · cases set

theorem Regular.declare {draft next : Draft α} {declaration : Declaration α}
    {number : Option Nat} (regular : draft.Regular)
    (declared : draft.declare declaration = .ok (number, next)) : next.Regular := by
  cases declaration with
  | terminal name =>
      change (draft.addTerminal name >>= fun added => pure (some added.1, added.2)) = _ at declared
      cases added : draft.addTerminal name with
      | error error => rw [added] at declared; cases declared
      | ok pair => rw [added] at declared; cases declared; exact regular.addTerminal added
  | nonterminal name =>
      change (draft.addNonterminal name >>= fun added => pure (some added.1, added.2)) = _
        at declared
      cases added : draft.addNonterminal name with
      | error error => rw [added] at declared; cases declared
      | ok pair => rw [added] at declared; cases declared; exact regular.addNonterminal added
  | rule left right action =>
      change (draft.addRule left right action >>= fun added => pure (some added.1, added.2)) = _
        at declared
      cases added : draft.addRule left right action with
      | error error => rw [added] at declared; cases declared
      | ok pair => rw [added] at declared; cases declared; exact regular.addRule added
  | start symbol =>
      change (draft.setStart symbol >>= fun set => pure (none, set)) = _ at declared
      cases set : draft.setStart symbol with
      | error error => rw [set] at declared; cases declared
      | ok next => rw [set] at declared; cases declared; exact regular.setStart set

theorem Regular.declareOrSkip {draft : Draft α} (regular : draft.Regular)
    (declaration : Declaration α) : (draft.declareOrSkip declaration).Regular := by
  unfold Draft.declareOrSkip
  cases declared : draft.declare declaration with
  | error error => exact regular
  | ok pair => exact regular.declare declared

theorem Regular.foldl {draft : Draft α} (regular : draft.Regular)
    (declarations : List (Declaration α)) :
    (declarations.foldl Draft.declareOrSkip draft).Regular := by
  induction declarations generalizing draft with
  | nil => exact regular
  | cons declaration declarations ih => exact ih (regular.declareOrSkip declaration)

end Draft

namespace Grammar

/-! ### Finished grammars -/

private theorem usable_of_draft {draft : Draft α} {grammar : Grammar α} {symbol : Symbol}
    (terminals : grammar.terminals = draft.terminals)
    (nonterminals : grammar.nonterminals = draft.nonterminals)
    (usable : draft.Usable symbol) : grammar.Usable symbol := by
  cases symbol with
  | terminal terminal =>
      simp only [Draft.Usable, Draft.isUsable, Bool.and_eq_true, bne_iff_ne,
        decide_eq_true_eq] at usable
      simp only [Usable, terminals]
      exact usable
  | nonterminal nonterminal =>
      simp only [Draft.Usable, Draft.isUsable, Draft.isUsableNonterminal, Bool.and_eq_true,
        bne_iff_ne, decide_eq_true_eq] at usable
      simp only [Usable, nonterminals]
      exact usable

private theorem finish_wellFormed {draft : Draft α} {grammar : Grammar α}
    (regular : draft.Regular) (finished : draft.finish = .ok grammar) : grammar.WellFormed := by
  unfold Draft.finish at finished
  dsimp only at finished
  split at finished
  · cases finished
  · rename_i start chosen
    have usable : draft.Usable (.nonterminal start) := by
      cases declared : draft.start with
      | some symbol =>
          rw [declared, Option.some_or] at chosen
          cases chosen
          exact regular.start_usable start declared
      | none =>
          rw [declared, Option.none_or] at chosen
          split at chosen
          · rename_i several
            cases chosen
            simp [Draft.Usable, Draft.isUsable, Draft.isUsableNonterminal,
              Nonterminal.augmented, several]
          · cases chosen
    cases finished
    refine ⟨regular.terminals_head, regular.nonterminals_head, regular.names_nodup,
      usable_of_draft rfl rfl usable, rfl, ?_, ?_, regular.action_isSome, ?_⟩
    · intro rule member
      exact usable_of_draft rfl rfl (regular.left_usable rule member)
    · intro rule member symbol inRight
      exact usable_of_draft rfl rfl (regular.right_usable rule member symbol inRight)
    · rw [List.map_cons, List.nodup_cons]
      refine ⟨?_, regular.sides_nodup⟩
      intro member
      obtain ⟨rule, present, sides⟩ := List.mem_map.mp member
      have reserved : draft.Usable (.nonterminal Nonterminal.augmented) := by
        have left := regular.left_usable rule present
        rwa [(Prod.mk.inj sides).1] at left
      simp [Draft.Usable, Draft.isUsable, Draft.isUsableNonterminal] at reserved

/-- Every grammar that declarations build is well formed. -/
theorem wellFormed_of_declarations {declarations : List (Declaration α)} {grammar : Grammar α}
    (accepted : Grammar.ofDeclarations declarations = .ok grammar) : grammar.WellFormed :=
  finish_wellFormed (Draft.Regular.initial.foldl declarations) accepted

/-- Nested parentheses, one pair in another. -/
def nested : Grammar Unit where
  terminals := ["$", "(", ")"]
  nonterminals := ["$start", "nested"]
  rules := [⟨0, [.nonterminal 1], none⟩,
    ⟨1, [.terminal 1, .nonterminal 1, .terminal 2], some ()⟩, ⟨1, [], some ()⟩]
  start := 1

def nestedDeclarations : List (Declaration Unit) :=
  [.terminal "(", .terminal ")", .nonterminal "nested",
    .rule 1 [.terminal 1, .nonterminal 1, .terminal 2] (), .rule 1 [] ()]

theorem nested_accepted : Grammar.ofDeclarations nestedDeclarations = .ok nested := rfl

/-- Sums of any number of summands, in any grouping. -/
def sums : Grammar Unit where
  terminals := ["$", "+", "n"]
  nonterminals := ["$start", "sum"]
  rules := [⟨0, [.nonterminal 1], none⟩,
    ⟨1, [.nonterminal 1, .terminal 1, .nonterminal 1], some ()⟩, ⟨1, [.terminal 2], some ()⟩]
  start := 1

def sumsDeclarations : List (Declaration Unit) :=
  [.terminal "+", .terminal "n", .nonterminal "sum",
    .rule 1 [.nonterminal 1, .terminal 1, .nonterminal 1] (), .rule 1 [.terminal 2] ()]

theorem sums_accepted : Grammar.ofDeclarations sumsDeclarations = .ok sums := rfl

/-! ### Rules by number -/

/-- Whether a symbol is declared; the reserved ones are. -/
def Declared (grammar : Grammar α) : Symbol → Prop
  | .terminal terminal => terminal < grammar.terminals.length
  | .nonterminal nonterminal => nonterminal < grammar.nonterminals.length

variable {grammar : Grammar α}

theorem Usable.declared {symbol : Symbol} (usable : grammar.Usable symbol) :
    grammar.Declared symbol := by
  cases symbol with
  | terminal terminal => exact usable.2
  | nonterminal nonterminal => exact usable.2

theorem right_eq {number : RuleId} {rule : Rule α} (known : grammar.rule? number = some rule) :
    grammar.right number = rule.right := by
  rw [right, known]
  rfl

theorem mem_numberedRules {rule : Rule α} {number : RuleId} :
    (rule, number) ∈ grammar.numberedRules ↔ grammar.rule? number = some rule := by
  rw [numberedRules, List.mem_zipIdx_iff_getElem?, rule?]

namespace WellFormed

theorem rule?_augmented (wellFormed : grammar.WellFormed) :
    grammar.rule? RuleId.augmented =
      some ⟨Nonterminal.augmented, [.nonterminal grammar.start], none⟩ := by
  have head := wellFormed.rules_head
  rw [List.head?_eq_getElem?] at head
  exact head

theorem mem_tail {number : RuleId} {rule : Rule α} (known : grammar.rule? number = some rule)
    (declared : number ≠ RuleId.augmented) : rule ∈ grammar.rules.tail := by
  cases number with
  | zero => exact absurd rfl declared
  | succ number =>
      apply List.mem_of_getElem? (i := number)
      rw [List.getElem?_tail]
      exact known

/-- Only the augmented rule has `$start` on its left. -/
theorem augmented_of_left (wellFormed : grammar.WellFormed) {number : RuleId} {rule : Rule α}
    (known : grammar.rule? number = some rule) (left : rule.left = Nonterminal.augmented) :
    number = RuleId.augmented := by
  by_contra declared
  have usable := wellFormed.left_usable rule (mem_tail known declared)
  exact usable.1 left

theorem left_ne_augmented (wellFormed : grammar.WellFormed) {number : RuleId} {rule : Rule α}
    (known : grammar.rule? number = some rule) (declared : number ≠ RuleId.augmented) :
    rule.left ≠ Nonterminal.augmented :=
  fun left => declared (wellFormed.augmented_of_left known left)

theorem ne_augmented_of_usable (wellFormed : grammar.WellFormed) {number : RuleId} {rule : Rule α}
    (known : grammar.rule? number = some rule) (usable : grammar.Usable (.nonterminal rule.left)) :
    number ≠ RuleId.augmented := by
  rintro rfl
  rw [wellFormed.rule?_augmented] at known
  cases known
  exact usable.1 rfl

/-- Every symbol of a right-hand side is usable, in the augmented rule too. -/
theorem usable_of_mem_right (wellFormed : grammar.WellFormed) {number : RuleId} {rule : Rule α}
    (known : grammar.rule? number = some rule) {symbol : Symbol} (member : symbol ∈ rule.right) :
    grammar.Usable symbol := by
  by_cases augmented : number = RuleId.augmented
  · subst augmented
    rw [wellFormed.rule?_augmented] at known
    cases known
    rw [List.mem_singleton.mp member]
    exact wellFormed.start_usable
  · exact wellFormed.right_usable rule (mem_tail known augmented) symbol member

theorem usable_of_mem_right_number (wellFormed : grammar.WellFormed) {number : RuleId}
    {symbol : Symbol} (member : symbol ∈ grammar.right number) : grammar.Usable symbol := by
  cases known : grammar.rule? number with
  | none => rw [right, known] at member; cases member
  | some rule =>
      rw [right_eq known] at member
      exact wellFormed.usable_of_mem_right known member

theorem left_lt (wellFormed : grammar.WellFormed) {number : RuleId} {rule : Rule α}
    (known : grammar.rule? number = some rule) : rule.left < grammar.nonterminals.length := by
  by_cases augmented : number = RuleId.augmented
  · subst augmented
    rw [wellFormed.rule?_augmented] at known
    cases known
    exact Nat.lt_of_le_of_lt (Nat.zero_le _) wellFormed.start_usable.2
  · exact (wellFormed.left_usable rule (mem_tail known augmented)).2

theorem eoi_declared (wellFormed : grammar.WellFormed) :
    grammar.Declared (.terminal Terminal.eoi) :=
  List.length_pos_of_mem (List.mem_of_head? wellFormed.terminals_head)

end WellFormed

end Grammar

end CoolLang
