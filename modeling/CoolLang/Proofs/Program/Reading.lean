import CoolLang.Proofs.Program.Outcome

/-!
Reading tokens. `Program.Reads` says what a list of tokens means as a phrase: the parts of a right-hand
side are read one after another, and the rule's action makes one value of theirs. The parser finds what
can be read before an end of input, and nothing else (`Program.parse_eq_ok_iff_reads`).
-/

namespace CoolLang

open ParseTree

/-- The next wider phrase that an operand may be without parentheses. -/
def Phrase.wider : Phrase → Phrase
  | .memberCall => .atom
  | .atom => .callFactor
  | .callFactor => .voidFactor
  | .voidFactor => .factor
  | .factor => .term
  | .term => .arith
  | .arith => .comparison
  | .comparison => .truth
  | .truth => .expr
  | phrase => phrase

namespace Program

mutual

inductive Reads : Symbol → List Token → Value → Prop where
  | token (token : Token) : Reads (.terminal token.terminal) [token] (.token token)
  | phrase {rule : Rule BuildAction} {action : BuildAction} {tokens : List Token}
      {arguments : List Value} {value : Value} (listed : rule ∈ grammar.rules)
      (has : rule.action = some action) (inside : ReadAll rule.right tokens arguments)
      (built : action arguments = some value) : Reads (.nonterminal rule.left) tokens value

inductive ReadAll : List Symbol → List Token → List Value → Prop where
  | nil : ReadAll [] [] []
  | cons {symbol : Symbol} {symbols : List Symbol} {front back : List Token} {value : Value}
      {values : List Value} (first : Reads symbol front value)
      (others : ReadAll symbols back values) :
      ReadAll (symbol :: symbols) (front ++ back) (value :: values)

end

/-! ### Trees -/

mutual

theorem Reads.exists_tree {symbol : Symbol} {tokens : List Token} {value : Value} :
    Reads symbol tokens value →
      ∃ tree calls, StandsFor grammar Token.terminal symbol tree ∧ tree.frontier = tokens ∧
        tree.Yields reducer calls value
  | .token token => ⟨.leaf token, _, .leaf token, rfl, .leaf rfl⟩
  | .phrase listed has inside built => by
      obtain ⟨number, known⟩ := List.getElem?_of_mem listed
      obtain ⟨trees, calls, stand, leaves, yield⟩ := inside.exists_trees
      exact ⟨.node number trees, _, .node known stand, leaves, .node yield (reduce_eq known has built)⟩

theorem ReadAll.exists_trees {symbols : List Symbol} {tokens : List Token} {values : List Value} :
    ReadAll symbols tokens values →
      ∃ trees calls, StandForAll grammar Token.terminal symbols trees ∧ frontiers trees = tokens ∧
        YieldAll reducer trees calls values
  | .nil => ⟨[], [], .nil, rfl, .nil⟩
  | .cons first others => by
      obtain ⟨tree, calls, stands, leaves, yields⟩ := first.exists_tree
      obtain ⟨trees, more, stand, leaves', yield⟩ := others.exists_trees
      refine ⟨tree :: trees, calls ++ more, .cons stands stand, ?_, .cons yields yield⟩
      rw [frontiers, leaves, leaves']

end

theorem exists_of_reduce {number : RuleId} {rule : Rule BuildAction} {arguments : List Value}
    {value : Value} (known : grammar.rule? number = some rule)
    (reduced : reducer.reduce number arguments = .ok value) :
    ∃ action, rule.action = some action ∧ action arguments = some value := by
  simp only [reducer, known, Option.bind_some] at reduced
  split at reduced
  · cases reduced
  · rename_i action has
    split at reduced
    · cases reduced
    · rename_i built
      cases reduced
      exact ⟨action, has, built⟩

mutual

theorem reads_of_tree {symbol : Symbol} {tree : ParseTree Token}
    {calls : List (ReducerCall Token RuleId Value)} {value : Value}
    (stands : StandsFor grammar Token.terminal symbol tree) (yields : tree.Yields reducer calls value) :
    Reads symbol tree.frontier value := by
  cases stands with
  | leaf token =>
      cases yields with
      | leaf shifted =>
          cases shifted
          exact .token token
  | node known inside =>
      cases yields with
      | node yield reduced =>
          obtain ⟨action, has, built⟩ := exists_of_reduce known reduced
          exact .phrase (List.mem_of_getElem? known) has (readAll_of_trees inside yield) built

theorem readAll_of_trees {symbols : List Symbol} {trees : List (ParseTree Token)}
    {calls : List (ReducerCall Token RuleId Value)} {values : List Value}
    (stand : StandForAll grammar Token.terminal symbols trees)
    (yield : YieldAll reducer trees calls values) : ReadAll symbols (frontiers trees) values := by
  cases stand with
  | nil =>
      cases yield
      exact .nil
  | cons first others =>
      cases yield with
      | cons yields yield =>
          exact .cons (reads_of_tree first yields) (readAll_of_trees others yield)

end

/-! ### Sentences -/

theorem mem_tail_of_action {rule : Rule BuildAction} {action : BuildAction}
    (listed : rule ∈ grammar.rules) (has : rule.action = some action) :
    rule ∈ grammar.rules.tail := by
  rcases List.mem_cons.mp listed with rfl | listed
  · cases has
  · exact listed

mutual

theorem Reads.sentence {symbol : Symbol} {tokens : List Token} {value : Value} :
    Reads symbol tokens value → grammar.Usable symbol → ∀ token ∈ tokens, token.kind ≠ .endOfInput
  | .token token, usable => by
      intro other member isEnd
      rw [List.mem_singleton.mp member] at isEnd
      exact usable.1 (TokenKind.terminal_eq_eoi.mpr isEnd)
  | .phrase listed has inside _, _ =>
      inside.sentence (grammar_wellFormed.right_usable _ (mem_tail_of_action listed has))

theorem ReadAll.sentence {symbols : List Symbol} {tokens : List Token} {values : List Value} :
    ReadAll symbols tokens values → (∀ symbol ∈ symbols, grammar.Usable symbol) →
      ∀ token ∈ tokens, token.kind ≠ .endOfInput
  | .nil, _ => fun _ impossible => nomatch impossible
  | .cons first inside, usable => by
      obtain ⟨isUsable, others⟩ := List.forall_mem_cons.mp usable
      intro token member
      rcases List.mem_append.mp member with front | back
      · exact first.sentence isUsable token front
      · exact inside.sentence others token back

end

theorem parse_eq_ok_iff_reads {tokens : List Token} {program : Program} :
    parse tokens = .ok program ↔
      ∃ word last rest, Reads Phrase.program word (.program program) ∧
        tokens = word ++ last :: rest ∧ last.kind = .endOfInput := by
  rw [parse_eq_ok_iff]
  constructor
  · intro ⟨tree, calls, last, rest, stands, yields, whole, atEnd, _⟩
    exact ⟨tree.frontier, last, rest, reads_of_tree stands yields, whole, atEnd⟩
  · intro ⟨word, last, rest, reads, whole, atEnd⟩
    have sentence := reads.sentence grammar_wellFormed.start_usable
    obtain ⟨tree, calls, stands, rfl, yields⟩ := reads.exists_tree
    exact ⟨tree, calls, last, rest, stands, yields, whole, atEnd, sentence⟩

/-! ### Rules -/

/-- What the rule with these sides makes of the values of its parts. -/
def built? (phrase : Phrase) (right : List Symbol) (arguments : List Value) : Option Value :=
  ((grammar.rules.find? fun rule => rule.left = phrase.nonterminal ∧ rule.right = right).bind
    Rule.action).bind fun action => action arguments

theorem Reads.of_built {phrase : Phrase} {right : List Symbol} {tokens : List Token}
    {arguments : List Value} {value : Value} (inside : ReadAll right tokens arguments)
    (built : built? phrase right arguments = some value) : Reads phrase tokens value := by
  obtain ⟨action, has, built⟩ := Option.bind_eq_some_iff.mp built
  obtain ⟨rule, found, has⟩ := Option.bind_eq_some_iff.mp has
  have sides := List.find?_some found
  rw [decide_eq_true_eq] at sides
  rw [← sides.1]
  rw [← sides.2] at inside
  exact .phrase (List.mem_of_find?_eq_some found) has inside built

section

variable {symbol : Symbol} {symbols : List Symbol} {tokens back : List Token} {value : Value}
  {values : List Value}

theorem ReadAll.token (token : Token) (others : ReadAll symbols back values) :
    ReadAll (.terminal token.terminal :: symbols) (token :: back) (.token token :: values) :=
  .cons (.token token) others

/-- Tokens that stand for themselves, before what else there is. -/
theorem ReadAll.lexemes (front : List Token) (others : ReadAll symbols back values) :
    ReadAll (front.map (fun token => .terminal token.terminal) ++ symbols) (front ++ back)
      (front.map .token ++ values) := by
  induction front with
  | nil => exact others
  | cons token front ih => exact .token token ih

theorem Reads.alone (reads : Reads symbol tokens value) : ReadAll [symbol] tokens [value] := by
  rw [← List.append_nil tokens]
  exact .cons reads .nil

end

/-! ### Operands -/

section

variable {phrase : Phrase} {tokens : List Token} {expr : Expr}

theorem Reads.wider (reads : Reads phrase tokens (.expr expr)) :
    Reads phrase.wider tokens (.expr expr) := by
  cases phrase <;> first | exact reads | exact .of_built reads.alone rfl

theorem Reads.widen (reads : Reads phrase tokens (.expr expr)) (steps : Nat) :
    Reads (Phrase.wider^[steps] phrase) tokens (.expr expr) := by
  induction steps generalizing phrase with
  | zero => exact reads
  | succ steps ih => exact ih reads.wider

theorem Reads.of_operand (phrase : Phrase) (wide : ∃ steps, Phrase.wider^[steps] phrase = .expr)
    (reads : Reads phrase tokens (.expr expr)) : Reads Phrase.expr tokens (.expr expr) := by
  obtain ⟨steps, wide⟩ := wide
  rw [← wide]
  exact reads.widen steps

theorem Reads.of_atom (reads : Reads Phrase.atom tokens (.expr expr)) : Reads Phrase.expr tokens (.expr expr) :=
  reads.of_operand .atom ⟨8, rfl⟩

/-- One token may be an expression, such as a name or a literal. -/
theorem Reads.single (token : Token)
    (built : built? .atom [.terminal token.terminal] [.token token] = some (.expr expr)) :
    Reads Phrase.expr [token] (.expr expr) :=
  .of_atom (.of_built (.token token .nil) built)

end

/-! ### Declarations -/

section

variable {groups : List (List Token)}

theorem Reads.features {features : List Feature}
    (each : List.Forall₂ (fun tokens feature => Reads Phrase.feature tokens (.feature feature)) groups features) :
    Reads Phrase.featureList groups.flatten (.features features) := by
  induction each with
  | nil => exact .of_built .nil rfl
  | cons reads _ ih => exact .of_built (.cons reads ih.alone) rfl

theorem Reads.classes {classes : List ClassDecl} (nonempty : classes ≠ [])
    (each : List.Forall₂ (fun tokens decl => Reads Phrase.classDef tokens (.classDecl decl)) groups classes) :
    Reads Phrase.classList groups.flatten (.classes classes) := by
  induction each with
  | nil => exact absurd rfl nonempty
  | cons reads others ih =>
      cases others with
      | nil =>
          rw [List.flatten_singleton]
          exact .of_built reads.alone rfl
      | cons => exact .of_built (.cons reads (ih (List.cons_ne_nil _ _)).alone) rfl

/-- Where each class can be read, the program is parsed. -/
theorem parse_of_classes {program : Program} (nonempty : program.classes ≠ [])
    (each : List.Forall₂ (fun tokens decl => Reads Phrase.classDef tokens (.classDecl decl)) groups program.classes)
    {tokens : List Token} (last : Token) (whole : tokens = groups.flatten ++ [last]) (atEnd : last.kind = .endOfInput) :
    parse tokens = .ok program :=
  parse_eq_ok_iff_reads.mpr ⟨_, last, [], .of_built (Reads.classes nonempty each).alone rfl, whole, atEnd⟩

end

end Program

end CoolLang
