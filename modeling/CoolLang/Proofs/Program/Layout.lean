import CoolLang.Program.Relocation
import CoolLang.Proofs.Program.Reading

/-!
The layout of a program. Tokens that are written elsewhere, and spelled otherwise where the spelling of
their kind is free, mean the same: what they are parsed to differs in its positions only, and these
move as the tokens do (`Program.parse_of_moved`).
-/

namespace CoolLang

variable {move : Position → Position}

/-- What a token may become when it is moved. Names keep their spelling, and literals their value. -/
@[mk_iff]
structure Token.Moved (move : Position → Position) (token moved : Token) : Prop where
  kind_eq : moved.kind = token.kind
  position_eq : moved.position = move token.position
  name_eq : token.kind = .typeName ∨ token.kind = .objectName → moved.lexeme = token.lexeme
  integer_eq : token.kind = .integer →
    Text.integerLiteral moved.lexeme = Text.integerLiteral token.lexeme
  string_eq : token.kind = .string →
    Text.stringLiteral moved.lexeme = Text.stringLiteral token.lexeme

instance (token moved : Token) : Decidable (token.Moved move moved) :=
  decidable_of_iff' _ (Token.moved_iff move token moved)

theorem Token.Moved.eq_mk {token moved : Token} (alike : token.Moved move moved) :
    moved = ⟨token.kind, moved.lexeme, move token.position⟩ := by
  rw [← alike.kind_eq, ← alike.position_eq]

theorem Expr.position_relocate (expr : Expr) :
    (expr.relocate move).position = move expr.position := by
  cases expr <;> rfl

/-- A part of a program with its positions moved. -/
def Value.relocate (move : Position → Position) : Value → Value
  | .token part => .token { part with position := move part.position }
  | .program part => .program (part.relocate move)
  | .classes parts => .classes (parts.map fun part => part.relocate move)
  | .classDecl part => .classDecl (part.relocate move)
  | .features parts => .features (parts.map fun part => part.relocate move)
  | .feature part => .feature (part.relocate move)
  | .params parts => .params (parts.map fun part =>
      ⟨part.name.relocate move, part.type.relocate move⟩)
  | .param part => .param ⟨part.name.relocate move, part.type.relocate move⟩
  | .expr part => .expr (part.relocate move)
  | .exprs parts => .exprs (Expr.relocateAll move parts)
  | .bindings parts => .bindings (Expr.relocateBindings move parts)
  | .binding part => .binding
      ⟨part.name.relocate move, part.type.map fun written => written.relocate move,
        Expr.relocateOption move part.init⟩
  | .branches parts => .branches (Expr.relocateBranches move parts)
  | .call part => .call
      ⟨part.cast.map fun written => written.relocate move, part.method.relocate move,
        Expr.relocateAll move part.args⟩

namespace Value

/-- The values that moved tokens have for a symbol, beside those of the tokens themselves. -/
inductive Moved (move : Position → Position) : Symbol → Value → Value → Prop where
  | token {token moved : Token} (alike : token.Moved move moved) :
      Moved move (.terminal token.terminal) (.token token) (.token moved)
  | phrase {nonterminal : Nonterminal} {value : Value} (fits : value.Fits (.nonterminal nonterminal)) :
      Moved move (.nonterminal nonterminal) value (value.relocate move)

inductive MovedAll (move : Position → Position) : List Symbol → List Value → List Value → Prop where
  | nil : MovedAll move [] [] []
  | cons {symbol : Symbol} {symbols : List Symbol} {value moved : Value} {values others : List Value}
      (first : Moved move symbol value moved) (inside : MovedAll move symbols values others) :
      MovedAll move (symbol :: symbols) (value :: values) (moved :: others)

theorem MovedAll.fits {symbols : List Symbol} {values others : List Value}
    (moved : MovedAll move symbols values others) : List.Forall₂ Fits symbols values := by
  induction moved with
  | nil => exact .nil
  | cons first _ ih =>
      refine .cons ?_ ih
      cases first with
      | token => exact rfl
      | phrase fits => exact fits

/-- Says of all values that moved tokens have for the symbols of a right-hand side that they have a
property. For the symbols of a rule this unfolds to a statement about the parts of the values. -/
def ForMoved (move : Position → Position) :
    List Symbol → (List Value → List Value → Prop) → Prop
  | [], property => property [] []
  | .terminal terminal :: symbols, property =>
      match (TokenKind.all[terminal]?).getD .endOfInput with
      | .integer => ∀ position lexeme moved,
          Text.integerLiteral moved = Text.integerLiteral lexeme →
            ForMoved move symbols fun values others =>
              property (.token ⟨.integer, lexeme, position⟩ :: values)
                (.token ⟨.integer, moved, move position⟩ :: others)
      | .string => ∀ position lexeme moved,
          Text.stringLiteral moved = Text.stringLiteral lexeme →
            ForMoved move symbols fun values others =>
              property (.token ⟨.string, lexeme, position⟩ :: values)
                (.token ⟨.string, moved, move position⟩ :: others)
      | kind => ∀ position lexeme moved,
          ForMoved move symbols fun values others =>
            property (.token ⟨kind, lexeme, position⟩ :: values)
              (.token ⟨kind, if kind = .typeName ∨ kind = .objectName then lexeme else moved,
                move position⟩ :: others)
  | .nonterminal nonterminal :: symbols, property =>
      ∀ content, ForMoved move symbols fun values others =>
        let value := ofContent ((Symbol.nonterminal nonterminal).variant?.getD .token) content
        property (value :: values) (value.relocate move :: others)

theorem MovedAll.holds {symbols : List Symbol} {values others : List Value}
    (moved : MovedAll move symbols values others) {property : List Value → List Value → Prop}
    (all : ForMoved move symbols property) : property values others := by
  induction moved generalizing property with
  | nil => exact all
  | cons first inside ih =>
      cases first with
      | phrase fits =>
          obtain ⟨content, rfl⟩ := fits.exists_content
          exact ih (all content)
      | @token token moved alike =>
          rw [alike.eq_mk]
          obtain ⟨kind, lexeme, position⟩ := token
          rw [ForMoved, Token.terminal, TokenKind.all_getElem?_terminal] at all
          cases kind
          case integer => exact ih (all position lexeme moved.lexeme (alike.integer_eq rfl))
          case string => exact ih (all position lexeme moved.lexeme (alike.string_eq rfl))
          case typeName =>
            rw [alike.name_eq (Or.inl rfl)]
            exact ih (all position lexeme moved.lexeme)
          case objectName =>
            rw [alike.name_eq (Or.inr rfl)]
            exact ih (all position lexeme moved.lexeme)
          all_goals exact ih (all position lexeme moved.lexeme)

end Value

namespace Program

/-- Whether a rule's action makes of moved parts what it makes of the parts, moved. -/
def RuleMoves (move : Position → Position) (rule : Rule BuildAction) : Prop :=
  ∃ action, rule.action = some action ∧ Value.ForMoved move rule.right fun arguments others =>
    ∃ value, action arguments = some value ∧ action others = some (value.relocate move)

section

variable (position : Position) {lexeme moved : String}

private theorem integer_moves
    (same : Text.integerLiteral moved = Text.integerLiteral lexeme) :
    some (Value.expr (.integer ⟨move position, none⟩ (Text.integerLiteral moved))) =
      some ((Value.expr (.integer ⟨position, none⟩ (Text.integerLiteral lexeme))).relocate move) := by
  rw [same]
  rfl

private theorem string_moves (same : Text.stringLiteral moved = Text.stringLiteral lexeme) :
    some (Value.expr (.string ⟨move position, none⟩ (Text.stringLiteral moved))) =
      some ((Value.expr (.string ⟨position, none⟩ (Text.stringLiteral lexeme))).relocate move) := by
  rw [same]
  rfl

end

private theorem binary_moves (operator : Operator) (left right : Expr) (sign : Value) :
    Phrase.binary operator [.expr (left.relocate move), sign, .expr (right.relocate move)] =
      some ((Value.expr (.binary ⟨left.position, none⟩ operator left right)).relocate move) := by
  rw [Phrase.binary, Expr.position_relocate]
  rfl

private theorem dispatch_moves (receiver : Expr) (call : CallSuffix) :
    some (Value.expr (.dispatch ⟨(receiver.relocate move).position, none⟩
        (some (receiver.relocate move)) (call.cast.map fun written => written.relocate move)
        (call.method.relocate move) (Expr.relocateAll move call.args))) =
      some ((Value.expr (.dispatch ⟨receiver.position, none⟩ (some receiver) call.cast call.method
        call.args)).relocate move) := by
  rw [Expr.position_relocate]
  rfl

theorem rules_move (move : Position → Position) :
    ∀ rule ∈ grammar.rules.tail, RuleMoves move rule := by
  simp only [grammar, List.tail_cons, Phrase.classRules, Phrase.featureRules, Phrase.exprRules,
    Phrase.bindingRules, Phrase.operatorRules, Phrase.callRules, Phrase.atomRules,
    List.forall_mem_append, List.forall_mem_cons]
  and_intros
  all_goals first | refine ⟨_, rfl, ?_⟩ | exact List.forall_mem_nil _
  -- what is left of a right-hand side is what its values hold
  all_goals repeat intro
  all_goals first
    | exact .intro _ ⟨rfl, rfl⟩
    | exact .intro _ ⟨rfl, binary_moves ..⟩
    | exact .intro _ ⟨rfl, dispatch_moves ..⟩
    | exact .intro _ ⟨rfl, integer_moves _ ‹_›⟩
    | exact .intro _ ⟨rfl, string_moves _ ‹_›⟩

mutual

theorem Reads.of_moved {symbol : Symbol} {others : List Token} {moved : Value} :
    Reads symbol others moved → ∀ {tokens}, List.Forall₂ (Token.Moved move) tokens others →
      ∃ value, Reads symbol tokens value ∧ Value.Moved move symbol value moved
  | .token moved, [token], .cons alike .nil => by
      rw [Token.terminal, alike.kind_eq]
      exact ⟨.token token, .token token, .token alike⟩
  | @Reads.phrase rule _ _ _ _ listed has inside built, _, alike => by
      obtain ⟨arguments, readAll, moved⟩ := inside.of_moved alike
      have declared := mem_tail_of_action listed has
      obtain ⟨_, has', all⟩ := rules_move move rule declared
      cases has.symm.trans has'
      obtain ⟨value, built', built''⟩ := moved.holds all
      cases built.symm.trans built''
      obtain ⟨_, has', all⟩ := rules_fit rule declared
      cases has.symm.trans has'
      obtain ⟨_, built'', fits⟩ := all arguments moved.fits
      cases built'.symm.trans built''
      exact ⟨value, .phrase listed has readAll built', .phrase fits⟩

theorem ReadAll.of_moved {symbols : List Symbol} {others : List Token} {moved : List Value} :
    ReadAll symbols others moved → ∀ {tokens}, List.Forall₂ (Token.Moved move) tokens others →
      ∃ values, ReadAll symbols tokens values ∧ Value.MovedAll move symbols values moved
  | .nil, _, .nil => ⟨[], .nil, .nil⟩
  | @ReadAll.cons _ _ front back _ _ first inside, tokens, alike => by
      obtain ⟨value, reads, moved⟩ := first.of_moved (List.forall₂_take_append tokens front back alike)
      obtain ⟨values, readAll, movedAll⟩ :=
        inside.of_moved (List.forall₂_drop_append tokens front back alike)
      refine ⟨value :: values, ?_, .cons moved movedAll⟩
      rw [← List.take_append_drop front.length tokens]
      exact .cons reads readAll

end

/-- Tokens are parsed where moved tokens are, and to the same but for the positions. -/
theorem parse_of_moved {tokens others : List Token} {result : Program}
    (moved : List.Forall₂ (Token.Moved move) tokens others) (parsed : parse others = .ok result) :
    ∃ program, parse tokens = .ok program ∧ program.relocate move = result := by
  obtain ⟨word, last, rest, reads, rfl, atEnd⟩ := parse_eq_ok_iff_reads.mp parsed
  have front := List.forall₂_take_append tokens word _ moved
  have back := List.forall₂_drop_append tokens word _ moved
  obtain ⟨value, reads', alike⟩ := reads.of_moved front
  generalize isResult : Value.program result = value' at alike
  cases alike with
  | phrase fits =>
      obtain ⟨program, rfl⟩ : ∃ program, value = .program program :=
        (@Value.fits_phrase .program value).mp fits
      cases isResult
      refine ⟨program, parse_eq_ok_iff_reads.mpr ?_, rfl⟩
      generalize split : tokens.drop word.length = others at back
      cases back with
      | @cons last' _ rest' _ atLast _ =>
          refine ⟨_, last', rest', reads', ?_, ?_⟩
          · rw [← split, List.take_append_drop]
          · rw [← atLast.kind_eq, atEnd]

theorem parse_of_unexpected {tokens : List Token} {steps place : Nat} {token : Token} {state : StateId}
    (ends : table.machine.Ends Token.terminal steps (table.machine.start tokens)
      (.error (.unexpectedToken token place state))) :
    parse tokens = .error (.unexpectedToken token.lexeme token.position) := by
  have parsed : table.parse Token.terminal tokens = _ := ParseTable.parse_eq_some_iff.mpr ⟨steps, ends⟩
  rw [parse, parsed, ofRun]

/-- Where a token is unexpected, one of the same kind is unexpected behind tokens of the same kinds. -/
theorem unexpected_of_alike {tokens others : List Token} (same : others.map Token.kind = tokens.map Token.kind)
    {steps place : Nat} {token : Token} {state : StateId}
    (ends : table.machine.Ends Token.terminal steps (table.machine.start tokens)
      (.error (.unexpectedToken token place state))) :
    tokens[place]? = some token ∧ ∃ other, others[place]? = some other ∧
      table.machine.Ends Token.terminal steps (table.machine.start others)
        (.error (.unexpectedToken other place state)) := by
  obtain ⟨last, rest, reaches, lookahead, rfl, rfl, refused⟩ := ends.unexpectedToken
  obtain ⟨read, whole, place⟩ := reaches.read_from_start
  rw [lookahead] at whole
  rw [whole, List.map_append, List.map_cons] at same
  obtain ⟨read', behind, whole', sameRead, sameBehind⟩ := List.map_eq_append_iff.mp same
  obtain ⟨other, rest', rfl, sameKind, _⟩ := List.map_eq_cons_iff.mp sameBehind
  have terminals : read'.map Token.terminal = read.map Token.terminal := by
    have sameTerminals := congrArg (List.map TokenKind.terminal) sameRead
    rwa [List.map_map, List.map_map] at sameTerminals
  have sameTerminal : other.terminal = token.terminal := congrArg TokenKind.terminal sameKind
  have reaches' := reaches.retoken Token.terminal rest' whole lookahead terminals sameTerminal
  have refused' : table.machine.action last.state other.terminal = none := by rw [sameTerminal, refused]
  have sameLength : read.length = read'.length := by
    have sameLength := congrArg List.length sameRead
    rw [List.length_map, List.length_map] at sameLength
    exact sameLength.symm
  refine ⟨?_, other, ?_, ?_⟩
  · rw [whole, place, List.getElem?_append_right (Nat.le_refl _), Nat.sub_self]
    rfl
  · rw [whole', place, sameLength, List.getElem?_append_right (Nat.le_refl _), Nat.sub_self]
    rfl
  · rw [whole']
    exact reaches'.ends (Machine.ends_of_none rfl refused')

/-- Where tokens are not parsed although they end, tokens of the same kinds are not either, and fail at the same
place. -/
theorem exists_unexpected {tokens others : List Token} (same : others.map Token.kind = tokens.map Token.kind)
    (ended : ∃ token ∈ tokens, token.kind = .endOfInput) (failed : ∀ program, parse tokens ≠ .ok program) :
    ∃ (place : Nat) (token other : Token), tokens[place]? = some token ∧ others[place]? = some other ∧
      parse tokens = .error (.unexpectedToken token.lexeme token.position) ∧
      parse others = .error (.unexpectedToken other.lexeme other.position) := by
  obtain ⟨steps, result, ends⟩ := (ParseTable.Forest.start grammar Token.terminal tokens).exists_ends
    grammar_wellFormed isLR1_table
  cases result with
  | ok derivation =>
      obtain ⟨_, _, program, _, _, _, _, _, _, _, result, _⟩ := replay_of_ends ends
      exact absurd (parse_of_accepted (ParseTable.parse_eq_some_iff.mpr ⟨steps, ends⟩) result) (failed program)
  | error error =>
      rcases ParseTable.fails_of_ends grammar_wellFormed ends with ⟨token, place, state, _, rfl⟩ | ⟨endless, _⟩
      · obtain ⟨isToken, other, isOther, ends'⟩ := unexpected_of_alike same ends
        exact ⟨place, token, other, isToken, isOther, parse_of_unexpected ends, parse_of_unexpected ends'⟩
      · obtain ⟨token, member, isEnd⟩ := ended
        exact absurd (TokenKind.terminal_eq_eoi.mpr isEnd) (endless token member)

end Program

end CoolLang
