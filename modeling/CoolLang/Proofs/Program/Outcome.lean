import CoolLang.Proofs.Program.Variant
import CoolLang.Proofs.ShiftReduce.Progress
import CoolLang.Proofs.ShiftReduce.StackSafety

/-!
What parsing a list of tokens comes to. A program is parsed from the leaves of a tree that has it for a
value, before an end of input (`Program.parse_eq_ok_iff`). Other lists of tokens fail at a token that
cannot stand where it does, or for want of an end of input (`Program.parse_never_internal`).
-/

namespace CoolLang

open ParseTree

namespace TokenKind

theorem terminal_injective : Function.Injective terminal := by
  intro first second same
  apply Option.some.inj
  rw [← all_getElem?_terminal first, same, all_getElem?_terminal]

theorem terminal_eq_eoi {kind : TokenKind} : kind.terminal = Terminal.eoi ↔ kind = .endOfInput :=
  (terminal_injective.eq_iff : kind.terminal = endOfInput.terminal ↔ _)

end TokenKind

namespace Program

variable {tokens : List Token} {program : Program}

/-- A parse that gets to the end evaluates a tree for a program. -/
theorem replay_of_ends {steps : Nat} {derivation : Derivation RuleId}
    (ends : table.machine.Ends Token.terminal steps (table.machine.start tokens) (.ok derivation)) :
    ∃ tree calls program last rest,
      StandsFor grammar Token.terminal (.nonterminal grammar.start) tree ∧
      tree.Yields reducer calls (.program program) ∧
      tokens = tree.frontier ++ last :: rest ∧ last.kind = .endOfInput ∧
      (∀ token ∈ tree.frontier, token.kind ≠ .endOfInput) ∧
      table.machine.replay reducer derivation tokens = .ok (.program program) ∧
      table.machine.replayCalls reducer.stateless derivation tokens () = calls ∧
      ∀ call ∈ calls, CallFits call := by
  obtain ⟨tree, last, rest, stands, whole, atEnd, sentence, _, replayed⟩ :=
    ParseTable.exists_tree_of_ends grammar_wellFormed ends
  obtain ⟨calls, value, yields, fits, callsFit⟩ := stands.exists_yields (by decide)
  obtain ⟨program, rfl⟩ : ∃ program, value = .program program :=
    (@Value.fits_phrase .program value).mp fits
  obtain ⟨result, made⟩ := Machine.replay_of_tree (replayed BuildError) yields
  refine ⟨tree, calls, program, last, rest, stands, yields, whole, ?_, ?_, result, made, callsFit⟩
  · exact TokenKind.terminal_eq_eoi.mp atEnd
  · intro token member isEnd
    exact sentence token member (TokenKind.terminal_eq_eoi.mpr isEnd)

theorem parse_of_accepted {derivation : Derivation RuleId}
    (parsed : table.parse Token.terminal tokens = some (.ok derivation))
    (result : table.machine.replay reducer derivation tokens = .ok (.program program)) :
    parse tokens = .ok program := by
  rw [parse, parsed, ofRun, result, ofReplay]

theorem parse_of_tree {tree : ParseTree Token} {calls : List (ReducerCall Token RuleId Value)}
    (stands : StandsFor grammar Token.terminal (.nonterminal grammar.start) tree)
    (yields : tree.Yields reducer calls (.program program))
    (sentence : ∀ token ∈ tree.frontier, token.kind ≠ .endOfInput) {last : Token}
    (atEnd : last.kind = .endOfInput) (rest : List Token) :
    parse (tree.frontier ++ last :: rest) = .ok program := by
  obtain ⟨derivation, parsed, replayed⟩ :=
    ParseTable.parse_of_tree grammar_wellFormed isLR1_table stands
      (fun token member => mt TokenKind.terminal_eq_eoi.mp (sentence token member))
      (TokenKind.terminal_eq_eoi.mpr atEnd) rest
  obtain ⟨result, _⟩ := Machine.replay_of_tree (replayed BuildError) yields
  exact parse_of_accepted parsed result

/-- What the parser makes of tokens is what a tree over them is worth. -/
theorem parse_eq_ok_iff :
    parse tokens = .ok program ↔
      ∃ tree calls last rest, StandsFor grammar Token.terminal (.nonterminal grammar.start) tree ∧
        tree.Yields reducer calls (.program program) ∧ tokens = tree.frontier ++ last :: rest ∧
        last.kind = .endOfInput ∧ ∀ token ∈ tree.frontier, token.kind ≠ .endOfInput := by
  constructor
  · intro parsed
    rw [parse] at parsed
    generalize isResult : table.parse Token.terminal tokens = result at parsed
    match result with
    | some (.ok derivation) =>
      obtain ⟨steps, ends⟩ := ParseTable.parse_eq_some_iff.mp isResult
      obtain ⟨tree, calls, program', last, rest, stands, yields, whole, atEnd, sentence, result, _⟩ :=
        replay_of_ends ends
      rw [ofRun, result] at parsed
      cases parsed
      exact ⟨tree, calls, last, rest, stands, yields, whole, atEnd, sentence⟩
  · intro ⟨tree, calls, last, rest, stands, yields, whole, atEnd, sentence⟩
    rw [whole]
    exact parse_of_tree stands yields sentence atEnd rest

/-- Parsing fails for its tokens only. The table comes to a result; where it accepts, no action is given
values that it does not ask for, and what is left at the end is a program. -/
theorem parse_never_internal (tokens : List Token) :
    ((∃ program, parse tokens = .ok program) ∨
      (∃ token ∈ tokens, parse tokens = .error (.unexpectedToken token.lexeme token.position)) ∨
      (∀ token ∈ tokens, token.kind ≠ .endOfInput) ∧
        parse tokens = .error (.internal "unexpected EOI")) ∧
    ∀ derivation, table.parse Token.terminal tokens = some (.ok derivation) →
      (∃ program, table.machine.replay reducer derivation tokens = .ok (.program program)) ∧
        ∀ call ∈ table.machine.replayCalls reducer.stateless derivation tokens (), CallFits call := by
  have accepts {derivation : Derivation RuleId}
      (parsed : table.parse Token.terminal tokens = some (.ok derivation)) :
      (∃ program, table.machine.replay reducer derivation tokens = .ok (.program program)) ∧
        ∀ call ∈ table.machine.replayCalls reducer.stateless derivation tokens (), CallFits call := by
    obtain ⟨steps, ends⟩ := ParseTable.parse_eq_some_iff.mp parsed
    obtain ⟨_, calls, program, _, _, _, _, _, _, _, result, made, callsFit⟩ := replay_of_ends ends
    exact ⟨⟨program, result⟩, made ▸ callsFit⟩
  refine ⟨?_, fun derivation => accepts⟩
  obtain ⟨steps, result, ends⟩ := (ParseTable.Forest.start grammar Token.terminal tokens).exists_ends
    grammar_wellFormed isLR1_table
  have parsed : table.parse Token.terminal tokens = some result :=
    ParseTable.parse_eq_some_iff.mpr ⟨steps, ends⟩
  cases result with
  | ok derivation =>
      obtain ⟨⟨program, result⟩, _⟩ := accepts parsed
      exact Or.inl ⟨program, parse_of_accepted parsed result⟩
  | error error =>
      refine Or.inr ?_
      rcases ParseTable.fails_of_ends grammar_wellFormed ends with
        ⟨token, position, state, member, rfl⟩ | ⟨endless, rfl⟩
      · exact Or.inl ⟨token, member, by rw [parse, parsed, ofRun]⟩
      · refine Or.inr ⟨fun token member isEnd => ?_, by rw [parse, parsed]; rfl⟩
        exact endless token member (TokenKind.terminal_eq_eoi.mpr isEnd)

end Program

end CoolLang
