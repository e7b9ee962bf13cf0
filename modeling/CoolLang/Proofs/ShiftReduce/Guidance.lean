import CoolLang.Proofs.ShiftReduce.Moves
import CoolLang.Proofs.ShiftReduce.ParseTree

/-!
Trees guide a table without conflicts. Before the leaves of trees for symbols after the marker of a
valid item, and then a terminal that is foreseen beyond these symbols, the run builds exactly these
trees and leaves the stack below them alone (`ParseTree.StandForAll.guides`).
-/

namespace CoolLang

variable {α θ : Type} {grammar : Grammar α} {terminalOf : θ → Terminal}
  {first second last : Configuration StateId θ RuleId} {read context : List Symbol}
  {trees : List (ParseTree θ)}

open ParseTree

/-- Once the leaves of trees are read, what follows is a terminal that the symbols foresee. -/
theorem ParseTree.StandForAll.foresees {symbols : List Symbol}
    (stand : StandForAll grammar terminalOf symbols trees) {token : θ} {rest : List θ}
    (foresees : grammar.Foresees context (terminalOf token)) :
    ∃ next others, frontiers trees ++ token :: rest = next :: others ∧
      grammar.Foresees (symbols ++ context) (terminalOf next) := by
  have derives := stand.derives
  cases leaves : frontiers trees with
  | nil =>
      rw [leaves] at derives
      exact ⟨token, rest, rfl,
        Grammar.foresees_append.mpr (Or.inr ⟨derives.vanishes .nil, foresees⟩)⟩
  | cons next others =>
      rw [leaves] at derives
      exact ⟨next, others ++ token :: rest, rfl,
        Grammar.foresees_append.mpr (Or.inl (derives.begins (.terminal _ _)))⟩

namespace ParseTable

/-- A run has put trees for `symbols` on the stack. -/
structure Builds (grammar : Grammar α) (terminalOf : θ → Terminal)
    (first last : Configuration StateId θ RuleId) (read symbols : List Symbol)
    (trees : List (ParseTree θ)) : Prop where
  reaches : ∃ steps, (generate grammar).machine.Reaches terminalOf steps first last
  path : grammar.automaton.Path (read ++ symbols) last.state last.below
  uncovered : (last.state :: last.below).drop symbols.length = first.state :: first.below
  rest_eq : first.rest = frontiers trees ++ last.rest
  reductions_eq : last.reductions = (allReductions trees).reverse ++ first.reductions

theorem Builds.nil (path : grammar.automaton.Path read first.state first.below) :
    Builds grammar terminalOf first first read [] [] where
  reaches := ⟨0, .refl first⟩
  path := by rwa [List.append_nil]
  uncovered := rfl
  rest_eq := rfl
  reductions_eq := rfl

theorem Builds.cons {symbol : Symbol} {symbols : List Symbol} {tree : ParseTree θ}
    (front : Builds grammar terminalOf first second read [symbol] [tree])
    (back : Builds grammar terminalOf second last (read ++ [symbol]) symbols trees) :
    Builds grammar terminalOf first last read (symbol :: symbols) (tree :: trees) where
  reaches := by
    obtain ⟨steps, reaches⟩ := front.reaches
    obtain ⟨more, reaches'⟩ := back.reaches
    exact ⟨steps + more, reaches.trans reaches'⟩
  path := by
    have path := back.path
    rwa [List.append_assoc] at path
  uncovered := by
    have uncovered := front.uncovered
    rw [← back.uncovered, List.drop_drop] at uncovered
    exact uncovered
  rest_eq := by
    rw [frontiers, List.append_assoc, ← back.rest_eq, front.rest_eq, frontiers_singleton]
  reductions_eq := by
    rw [allReductions, List.reverse_append, List.append_assoc, back.reductions_eq,
      front.reductions_eq, allReductions_singleton]

end ParseTable

namespace ParseTree

open ParseTable

mutual

theorem StandsFor.guides (wellFormed : grammar.WellFormed)
    (free : (generate grammar).isLR1 = true) {symbol : Symbol} {symbols : List Symbol}
    {tree : ParseTree θ} {first : Configuration StateId θ RuleId} {read context : List Symbol}
    {item : Item} {token : θ} {rest : List θ}
    (stands : StandsFor grammar terminalOf symbol tree)
    (path : grammar.automaton.Path read first.state first.below)
    (valid : grammar.Valid read item context)
    (after : (grammar.right item.rule).drop item.marker = symbol :: symbols)
    (lookahead : first.rest = tree.frontier ++ token :: rest)
    (foresees : grammar.Foresees (symbols ++ context) (terminalOf token)) :
    ∃ last, Builds grammar terminalOf first last read [symbol] [tree] := by
  cases stands with
  | leaf leaf =>
      obtain ⟨next, shifts, path'⟩ :=
        shifts_of_valid wellFormed free path valid (Item.next?_of_drop after)
      have step : (generate grammar).machine.Reaches terminalOf 1 first
          (first.shift (token :: rest) next) :=
        .single (Machine.step_of_shift lookahead shifts)
      refine ⟨_, ⟨1, step⟩, path', rfl, ?_, rfl⟩
      rw [frontiers_singleton]
      exact lookahead
  | @node number rule children known inside =>
      have reached := valid.reached after
      obtain ⟨second, builds⟩ := inside.guides wellFormed free path (reached.valid known)
        (by rw [Grammar.right_eq known, List.drop_zero, List.append_nil]) lookahead foresees
      have lookahead' : second.rest = token :: rest := by
        have same := builds.rest_eq
        rw [lookahead, frontier] at same
        exact (List.append_cancel_left same).symm
      have inRest : Symbol.nonterminal rule.left ∈ (grammar.right item.rule).drop item.marker := by
        rw [after]
        exact List.mem_cons_self
      have usable := wellFormed.usable_of_mem_right_number (List.mem_of_mem_drop inRest)
      have declared := wellFormed.ne_augmented_of_usable known usable
      obtain ⟨before, top, below, next, whole, _, uncovered, reaches, path'⟩ :=
        reaches_reduce wellFormed free builds.path lookahead' known declared
          (reached.valid_within known (List.append_nil _).symm) foresees
      have sameRead := List.append_cancel_right whole
      subst sameRead
      rw [builds.uncovered] at uncovered
      cases uncovered
      obtain ⟨steps, reaches'⟩ := builds.reaches
      refine ⟨_, ⟨steps + 1, reaches'.trans reaches⟩, path', rfl, ?_, ?_⟩
      · rw [frontiers_singleton, frontier]
        exact builds.rest_eq
      · rw [allReductions_singleton, reductions, List.reverse_append]
        exact congrArg (List.cons number) builds.reductions_eq

theorem StandForAll.guides (wellFormed : grammar.WellFormed)
    (free : (generate grammar).isLR1 = true) {symbols beyond : List Symbol}
    {trees : List (ParseTree θ)} {first : Configuration StateId θ RuleId}
    {read context : List Symbol} {item : Item} {token : θ} {rest : List θ}
    (stand : StandForAll grammar terminalOf symbols trees)
    (path : grammar.automaton.Path read first.state first.below)
    (valid : grammar.Valid read item context)
    (after : (grammar.right item.rule).drop item.marker = symbols ++ beyond)
    (lookahead : first.rest = frontiers trees ++ token :: rest)
    (foresees : grammar.Foresees (beyond ++ context) (terminalOf token)) :
    ∃ last, Builds grammar terminalOf first last read symbols trees := by
  cases stand with
  | nil => exact ⟨first, .nil path⟩
  | @cons symbol symbols tree trees stands others =>
      obtain ⟨token', rest', whole, foresees'⟩ := others.foresees foresees
      rw [frontiers, List.append_assoc, whole] at lookahead
      rw [← List.append_assoc] at foresees'
      obtain ⟨second, front⟩ := stands.guides wellFormed free path valid after lookahead foresees'
      have advanced := valid.advance (Item.next?_of_drop after)
      have lookahead' : second.rest = frontiers trees ++ token :: rest := by
        have same := front.rest_eq
        rw [lookahead, frontiers_singleton] at same
        rw [whole]
        exact (List.append_cancel_left same).symm
      obtain ⟨last, back⟩ := others.guides wellFormed free front.path advanced
        (Item.drop_advance after) lookahead' foresees
      exact ⟨last, front.cons back⟩

end

end ParseTree

end CoolLang
