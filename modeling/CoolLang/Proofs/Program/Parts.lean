import CoolLang.Program.Parts
import CoolLang.Proofs.Program.Shape

/-!
Where the expressions of a program are written. All of them are made of phrases of the parse tree, in order,
and each has the position of the first token of its phrase that is no opening parenthesis
(`Program.parse_positions`). None of them has a static type yet (`Program.parse_untyped`).
-/

namespace CoolLang

open ParseTree

/-- The first token that is no opening parenthesis. -/
def firstWord? (tokens : List Token) : Option Token :=
  tokens.find? fun token => token.kind ≠ .leftParen

theorem firstWord?_of_leftParen {token : Token} (isLeft : token.kind = .leftParen)
    (tokens : List Token) : firstWord? (token :: tokens) = firstWord? tokens :=
  List.find?_cons_of_neg (by simpa using isLeft)

theorem firstWord?_append {front : List Token} {token : Token} (found : firstWord? front = some token)
    (back : List Token) : firstWord? (front ++ back) = some token := by
  rw [firstWord?] at found ⊢
  rw [List.find?_append, found, Option.some_or]

/-- Whether a phrase stands for an expression, which begins where the phrase does. -/
def ParseTree.Locates (expr : Expr) (phrase : ParseTree Token) : Prop :=
  (∃ calls, phrase.Yields Program.reducer calls (.expr expr)) ∧
    ∃ token, firstWord? phrase.frontier = some token ∧ expr.position = token.position

namespace Value

/-- The expressions in a part of a program, each before those inside it. -/
def parts : Value → List Expr
  | .token _ => []
  | .program content => content.exprs
  | .classes content => content.flatMap ClassDecl.exprs
  | .classDecl content => content.exprs
  | .features content => content.flatMap Feature.exprs
  | .feature content => content.exprs
  | .params _ => []
  | .param _ => []
  | .expr content => content :: content.inside
  | .exprs content => Expr.insideAll content
  | .bindings content => Expr.insideBindings content
  | .binding content => Expr.insideOption content.init
  | .branches content => Expr.insideBranches content
  | .call content => Expr.insideAll content.args

/-- The literals among the tokens themselves. -/
def literals : Value → List (Position × Literal)
  | .token content => content.literal?.toList
  | _ => []

/-- Says of all values of a variant that they have a property. -/
def ForVariant (property : Value → Prop) : Variant → Prop
  | .token => ∀ content, property (.token content)
  | .program => ∀ content, property (.program content)
  | .classes => ∀ content, property (.classes content)
  | .classDecl => ∀ content, property (.classDecl content)
  | .features => ∀ content, property (.features content)
  | .feature => ∀ content, property (.feature content)
  | .params => ∀ content, property (.params content)
  | .param => ∀ content, property (.param content)
  | .expr => ∀ content, property (.expr content)
  | .exprs => ∀ content, property (.exprs content)
  | .bindings => ∀ content, property (.bindings content)
  | .binding => ∀ content, property (.binding content)
  | .branches => ∀ content, property (.branches content)
  | .call => ∀ content, property (.call content)

theorem ForVariant.holds {property : Value → Prop} {value : Value}
    (all : ForVariant property value.variant) : property value := by
  cases value <;> exact all _

/-- Says of all values that are read for a symbol that they have a property. A token is of the kind of its
terminal. -/
def ForSymbol : Symbol → (Value → Prop) → Prop
  | .terminal terminal, property =>
      ∀ lexeme position,
        property (.token ⟨(TokenKind.all[terminal]?).getD .endOfInput, lexeme, position⟩)
  | .nonterminal nonterminal, property =>
      ForVariant property ((Symbol.nonterminal nonterminal).variant?.getD .token)

/-- Says of all values that are read for the symbols of a right-hand side that they have a property. For
the symbols of a rule this unfolds to a statement about what the values hold. -/
def ForRead : List Symbol → (List Value → Prop) → Prop
  | [], property => property []
  | symbol :: symbols, property =>
      ForSymbol symbol fun value => ForRead symbols fun values => property (value :: values)

/-- Whether the first of some values begins at a position by itself. -/
def BeginAt (position : Position) : List Value → Prop
  | .token first :: _ => first.kind ≠ .leftParen ∧ position = first.position
  | .expr first :: _ => position = first.position
  | _ => False

end Value

namespace Program

/-- How the expressions of what a rule makes come from its parts: the rule widens a phrase, puts it into
parentheses, makes an expression of a word, composes one of several parts, or just gathers what is in them. -/
inductive Gathers (rule : Rule BuildAction) : List Value → Value → Prop where
  | widened {expr : Expr} (makes : Phrase.makesExpr rule = true) (wraps : Phrase.wraps rule = true) :
      Gathers rule [.expr expr] (.expr expr)
  | enclosed {expr : Expr} {left right : Token} (makes : Phrase.makesExpr rule = true)
      (wraps : Phrase.wraps rule = true) (isLeft : left.kind = .leftParen)
      (isRight : right.kind = .rightParen) :
      Gathers rule [.token left, .expr expr, .token right] (.expr expr)
  | word {token : Token} {expr : Expr} (makes : Phrase.makesExpr rule = true)
      (bare : Phrase.wraps rule = false) (begins : Value.BeginAt expr.position [.token token])
      (alone : expr.inside = []) (same : expr.literal? = token.literal?) :
      Gathers rule [.token token] (.expr expr)
  | composed {arguments : List Value} {expr : Expr} (makes : Phrase.makesExpr rule = true)
      (bare : Phrase.wraps rule = false) (begins : Value.BeginAt expr.position arguments)
      (plain : expr.literal? = none) (signs : arguments.flatMap Value.literals = [])
      (parts : expr.inside = arguments.flatMap Value.parts) : Gathers rule arguments (.expr expr)
  | gathered {arguments : List Value} {value : Value} (other : Phrase.makesExpr rule = false)
      (notExpr : ∀ expr, value ≠ .expr expr) (notToken : ∀ token, value ≠ .token token)
      (signs : arguments.flatMap Value.literals = [])
      (parts : value.parts = arguments.flatMap Value.parts) : Gathers rule arguments value

def RuleGathers (rule : Rule BuildAction) : Prop :=
  ∃ action, rule.action = some action ∧ Value.ForRead rule.right fun arguments =>
    ∃ value, action arguments = some value ∧ Gathers rule arguments value

theorem rules_gather : ∀ rule ∈ grammar.rules.tail, RuleGathers rule := by
  simp only [grammar, List.tail_cons, Phrase.classRules, Phrase.featureRules, Phrase.exprRules,
    Phrase.bindingRules, Phrase.operatorRules, Phrase.callRules, Phrase.atomRules,
    List.forall_mem_append, List.forall_mem_cons]
  and_intros
  all_goals first | refine ⟨_, rfl, ?_⟩ | exact List.forall_mem_nil _
  -- what is left of a right-hand side is what its values hold
  all_goals repeat intro
  all_goals refine ⟨_, rfl, ?_⟩
  all_goals first
    | exact .widened rfl rfl
    | exact .enclosed rfl rfl rfl rfl
    | exact .word rfl rfl ⟨TokenKind.noConfusion, rfl⟩ rfl rfl
    | refine .composed rfl rfl ⟨TokenKind.noConfusion, rfl⟩ rfl rfl ?_
    | refine .composed rfl rfl rfl rfl rfl ?_
    | refine .gathered rfl (fun _ => Value.noConfusion) (fun _ => Value.noConfusion) rfl ?_
  all_goals
    simp only [List.flatMap_cons, List.flatMap_nil, List.append_nil, List.nil_append, Value.parts,
      Program.exprs, ClassDecl.exprs, Feature.exprs, Expr.inside, Expr.insideOption, Expr.insideAll,
      Expr.insideBindings, Expr.insideBranches]

end Program

namespace Value

/-- Whether a value may stand for a symbol. -/
inductive Suits : Symbol → Value → Prop where
  | token (token : Token) : Suits (.terminal token.terminal) (.token token)
  | phrase {nonterminal : Nonterminal} {value : Value} (fits : value.Fits (.nonterminal nonterminal)) :
      Suits (.nonterminal nonterminal) value

theorem Suits.fits {symbol : Symbol} {value : Value} (suits : Suits symbol value) : value.Fits symbol := by
  cases suits with
  | token => rfl
  | phrase fits => exact fits

theorem Suits.holds {symbol : Symbol} {value : Value} {property : Value → Prop}
    (suits : Suits symbol value) (all : ForSymbol symbol property) : property value := by
  cases suits with
  | token token =>
      have read := all token.lexeme token.position
      rwa [Token.terminal, TokenKind.all_getElem?_terminal] at read
  | phrase fits =>
      rw [ForSymbol, fits] at all
      exact ForVariant.holds all

theorem holds_of_suit {symbols : List Symbol} {values : List Value} {property : List Value → Prop}
    (suit : List.Forall₂ Suits symbols values) (all : ForRead symbols property) : property values := by
  induction suit generalizing property with
  | nil => exact all
  | @cons symbol value symbols values suits _ ih =>
      exact @ih (fun values => property (value :: values)) (suits.holds all)

end Value

namespace Program

theorem Reads.suits {symbol : Symbol} {tokens : List Token} {value : Value}
    (reads : Reads symbol tokens value) : value.Suits symbol := by
  have fits := reads.shaped.1
  cases reads with
  | token token => exact .token token
  | phrase => exact .phrase fits

theorem ReadAll.suit {symbols : List Symbol} {tokens : List Token} {values : List Value}
    (readAll : ReadAll symbols tokens values) : List.Forall₂ Value.Suits symbols values := by
  induction symbols generalizing tokens values with
  | nil =>
      cases readAll
      exact .nil
  | cons symbol symbols ih =>
      cases readAll with
      | cons first others => exact .cons first.suits (ih others)

/-- A rule makes something of any values that may stand for its symbols. -/
theorem exists_gathers {rule : Rule BuildAction} {action : BuildAction} {arguments : List Value}
    (listed : rule ∈ grammar.rules) (has : rule.action = some action)
    (suit : List.Forall₂ Value.Suits rule.right arguments) :
    ∃ value, action arguments = some value ∧ Gathers rule arguments value ∧
      value.Suits (.nonterminal rule.left) := by
  have declared := mem_tail_of_action listed has
  obtain ⟨_, has', all⟩ := rules_gather rule declared
  obtain ⟨_, has'', fitting⟩ := rules_fit rule declared
  cases has.symm.trans has'
  cases has.symm.trans has''
  obtain ⟨value, built, gathers⟩ := Value.holds_of_suit suit all
  obtain ⟨_, built', fits⟩ := fitting arguments (suit.imp fun _ _ => Value.Suits.fits)
  cases built.symm.trans built'
  exact ⟨value, built, gathers, .phrase fits⟩

/-- What is read by a rule gathers its parts. -/
theorem gathers_of_reads {rule : Rule BuildAction} {action : BuildAction} {tokens : List Token}
    {arguments : List Value} {value : Value} (listed : rule ∈ grammar.rules)
    (has : rule.action = some action) (inside : ReadAll rule.right tokens arguments)
    (built : action arguments = some value) : Gathers rule arguments value := by
  obtain ⟨_, built', gathers, _⟩ := exists_gathers listed has inside.suit
  cases built.symm.trans built'
  exact gathers

/-! ### Static types -/

/-- Whether an expression that a rule makes, and does not just pass on, has no static type. -/
def RuleUntyped (rule : Rule BuildAction) : Prop :=
  ∃ action, rule.action = some action ∧ Value.ForRead rule.right fun arguments =>
    ∀ expr, action arguments = some (.expr expr) → Phrase.wraps rule = false → expr.type? = none

theorem rules_untyped : ∀ rule ∈ grammar.rules.tail, RuleUntyped rule := by
  simp only [grammar, List.tail_cons, Phrase.classRules, Phrase.featureRules, Phrase.exprRules,
    Phrase.bindingRules, Phrase.operatorRules, Phrase.callRules, Phrase.atomRules,
    List.forall_mem_append, List.forall_mem_cons]
  and_intros
  all_goals first | refine ⟨_, rfl, ?_⟩ | exact List.forall_mem_nil _
  -- what is left of a right-hand side is what its values hold
  all_goals repeat intro
  all_goals rename_i built bare
  all_goals first
    | cases built <;> rfl
    | cases bare

mutual

/-- What is read has no static types. -/
theorem Reads.untyped {symbol : Symbol} {tokens : List Token} {value : Value} :
    Reads symbol tokens value → ∀ expr ∈ value.parts, expr.type? = none
  | .token _ => nofun
  | .phrase listed has inside built => by
      obtain ⟨_, has', fresh⟩ := rules_untyped _ (mem_tail_of_action listed has)
      cases has.symm.trans has'
      have fresh := Value.holds_of_suit inside.suit fresh
      have parts := inside.untyped
      cases gathers_of_reads listed has inside built with
      | widened => exact fun expr member => parts expr (List.mem_append_left _ member)
      | enclosed => exact fun expr member => parts expr (List.mem_append_right _ (List.mem_append_left _ member))
      | word _ bare _ alone =>
          rw [Value.parts, alone]
          exact List.forall_mem_singleton.mpr (fresh _ built bare)
      | composed _ bare _ _ _ same =>
          rw [Value.parts, same]
          exact List.forall_mem_cons.mpr ⟨fresh _ built bare, parts⟩
      | gathered _ _ _ _ same => exact same ▸ parts

theorem ReadAll.untyped {symbols : List Symbol} {tokens : List Token} {values : List Value} :
    ReadAll symbols tokens values → ∀ expr ∈ values.flatMap Value.parts, expr.type? = none
  | .nil => nofun
  | .cons first others => List.forall_mem_append.mpr ⟨first.untyped, others.untyped⟩

end

/-- A parsed program has no static types. -/
theorem parse_untyped {tokens : List Token} {program : Program} (parsed : parse tokens = .ok program) :
    ∀ expr ∈ program.exprs, expr.type? = none := by
  obtain ⟨word, last, rest, reads, _⟩ := parse_eq_ok_iff_reads.mp parsed
  exact reads.untyped

end Program

/-! ### Positions -/

open Program

/-- What the phrases of a tree that stands for a value are. -/
structure ParseTree.Located (tree : ParseTree Token) (value : Value) : Prop where
  /-- They are those of the expressions in the value. -/
  phrases : List.Forall₂ Locates value.parts (tree.exprPhrases false)
  /-- Those within the phrase of an expression are those of the expressions inside it. -/
  within : ∀ expr, value = .expr expr → List.Forall₂ Locates expr.inside (tree.exprPhrases true)
  first : ∀ expr, value = .expr expr →
    ∃ token, firstWord? tree.frontier = some token ∧ expr.position = token.position
  leaf : ∀ token, value = .token token → tree = .leaf token

namespace ParseTree

variable {tree : ParseTree Token} {trees : List (ParseTree Token)} {values : List Value}

theorem phrases_of_located (located : List.Forall₂ Located trees values) :
    List.Forall₂ Locates (values.flatMap Value.parts) (allExprPhrases false trees) := by
  induction located with
  | nil => exact .nil
  | cons first _ ih => exact List.rel_append first.phrases ih

/-- What is made of several parts begins where the first one does. -/
theorem first_of_located {position : Position} (located : List.Forall₂ Located trees values)
    (begins : Value.BeginAt position values) :
    ∃ token, firstWord? (frontiers trees) = some token ∧ position = token.position := by
  cases located with
  | nil => exact begins.elim
  | @cons tree value trees values first _ =>
      cases value with
      | token token =>
          obtain ⟨notParen, same⟩ := begins
          obtain rfl := first.leaf token rfl
          exact ⟨token, firstWord?_append (List.find?_cons_of_pos (decide_eq_true notParen)) _, same⟩
      | expr expr =>
          obtain ⟨token, found, same⟩ := first.first expr rfl
          exact ⟨token, firstWord?_append found _, begins.trans same⟩
      | _ => exact begins.elim

section

variable {number : RuleId} {rule : Rule BuildAction} {calls : List (ReducerCall Token RuleId Value)}
  (known : grammar.rule? number = some rule)

include known

theorem exprPhrases_node (listed : Bool) : exprPhrases listed (node number trees) =
    if Phrase.makesExpr rule then
      (if listed then [] else [node number trees]) ++ allExprPhrases (Phrase.wraps rule) trees
    else allExprPhrases false trees := by
  rw [exprPhrases, known]

/-- The phrase of an expression is located where what is inside it is. -/
theorem located_of_inside {expr : Expr} (makes : Phrase.makesExpr rule = true)
    (yields : (node number trees).Yields reducer calls (.expr expr))
    (inside : List.Forall₂ Locates expr.inside (allExprPhrases (Phrase.wraps rule) trees))
    (first : ∃ token, firstWord? (frontiers trees) = some token ∧ expr.position = token.position) :
    (node number trees).Located (.expr expr) := by
  refine ⟨?_, ?_, ?_, nofun⟩
  · rw [exprPhrases_node known, if_pos makes]
    exact .cons ⟨⟨_, yields⟩, first⟩ inside
  · intro _ same
    cases same
    rw [exprPhrases_node known, if_pos makes]
    exact inside
  · intro _ same
    cases same
    exact first

/-- A node that a rule makes of located parts is located. -/
theorem located_node {value : Value} (located : List.Forall₂ Located trees values)
    (gathers : Gathers rule values value) (yields : (node number trees).Yields reducer calls value) :
    (node number trees).Located value := by
  cases gathers with
  | widened makes wraps =>
      match trees, located with
      | [tree], .cons only .nil =>
          refine located_of_inside known makes yields ?_ ?_
          · rw [wraps, allExprPhrases, allExprPhrases, List.append_nil]
            exact only.within _ rfl
          · rw [frontiers_singleton]
            exact only.first _ rfl
  | @enclosed expr left right makes wraps isLeft isRight =>
      match trees, located with
      | [_, tree, _], .cons opening (.cons only (.cons closing .nil)) =>
          obtain rfl := opening.leaf left rfl
          obtain rfl := closing.leaf right rfl
          refine located_of_inside known makes yields ?_ ?_
          · simp only [wraps, allExprPhrases, exprPhrases, List.append_nil, List.nil_append]
            exact only.within _ rfl
          · obtain ⟨token, found, same⟩ := only.first _ rfl
            refine ⟨token, ?_, same⟩
            rw [frontiers, frontier, List.singleton_append, firstWord?_of_leftParen isLeft, frontiers]
            exact firstWord?_append found _
  | word makes bare begins alone same =>
      refine located_of_inside known makes yields ?_ (first_of_located located begins)
      rw [bare, alone]
      exact phrases_of_located located
  | composed makes bare begins plain signs parts =>
      refine located_of_inside known makes yields ?_ (first_of_located located begins)
      rw [bare, parts]
      exact phrases_of_located located
  | gathered other notExpr notToken signs parts =>
      refine ⟨?_, fun expr same => absurd same (notExpr expr), fun expr same => absurd same (notExpr expr),
        fun token same => absurd same (notToken token)⟩
      rw [parts, exprPhrases_node known, other]
      exact phrases_of_located located

end

mutual

/-- The phrases of a tree are where the expressions of its value are written. -/
theorem StandsFor.located {symbol : Symbol} {tree : ParseTree Token} {value : Value}
    {calls : List (ReducerCall Token RuleId Value)}
    (stands : StandsFor grammar Token.terminal symbol tree)
    (yields : tree.Yields reducer calls value) : tree.Located value := by
  have whole := yields
  cases stands with
  | leaf token =>
      cases yields with
      | leaf shifted =>
          cases shifted
          exact ⟨.nil, nofun, nofun, fun token same => by cases same; rfl⟩
  | node known inside =>
      cases yields with
      | node yield reduced =>
          obtain ⟨action, has, built⟩ := exists_of_reduce known reduced
          exact located_node known (inside.located yield)
            (gathers_of_reads (List.mem_of_getElem? known) has (readAll_of_trees inside yield) built) whole

theorem StandForAll.located {symbols : List Symbol} {trees : List (ParseTree Token)}
    {values : List Value} {calls : List (ReducerCall Token RuleId Value)}
    (stand : StandForAll grammar Token.terminal symbols trees)
    (yield : YieldAll reducer trees calls values) : List.Forall₂ Located trees values := by
  cases stand with
  | nil =>
      cases yield
      exact .nil
  | cons first others =>
      cases yield with
      | cons yields yield => exact .cons (first.located yields) (others.located yield)

end

end ParseTree

namespace Program

/-- Whether a tree is a parse tree of tokens up to an end of input. -/
def IsParseTree (tokens : List Token) (tree : ParseTree Token) : Prop :=
  StandsFor grammar Token.terminal (.nonterminal grammar.start) tree ∧
    ∃ last rest, tokens = tree.frontier ++ last :: rest ∧ last.kind = .endOfInput

theorem sentence_of_stands {tree : ParseTree Token}
    (stands : StandsFor grammar Token.terminal (.nonterminal grammar.start) tree) :
    ∀ token ∈ tree.frontier, token.kind ≠ .endOfInput := by
  obtain ⟨calls, value, yields, _⟩ := stands.exists_yields (by decide)
  exact (reads_of_tree stands yields).sentence grammar_wellFormed.start_usable

/-- The parser replays to any parse tree of the tokens, so there is but one. -/
theorem IsParseTree.unique {tokens : List Token} {tree other : ParseTree Token}
    (one : IsParseTree tokens tree) (two : IsParseTree tokens other) : tree = other := by
  have replays {tree : ParseTree Token} (isTree : IsParseTree tokens tree) : ∃ derivation,
      table.parse Token.terminal tokens = some (.ok derivation) ∧
        table.machine.replay (builder : Reducer Token RuleId _ Unit) derivation tokens = .ok tree := by
    obtain ⟨stands, last, rest, rfl, atEnd⟩ := isTree
    obtain ⟨derivation, parsed, replayed⟩ := ParseTable.parse_of_tree grammar_wellFormed isLR1_table stands
      (fun token member => mt TokenKind.terminal_eq_eoi.mp (sentence_of_stands stands token member))
      (TokenKind.terminal_eq_eoi.mpr atEnd) rest
    exact ⟨derivation, parsed, replayed Unit⟩
  obtain ⟨derivation, parsed, replayed⟩ := replays one
  obtain ⟨derivation', parsed', replayed'⟩ := replays two
  cases parsed.symm.trans parsed'
  cases replayed.symm.trans replayed'
  rfl

variable {tokens : List Token} {program : Program}

/-- Tokens that are parsed have one parse tree, and every expression of the program has the position of the
first token, parentheses apart, of the phrase that stands for it there. -/
theorem parse_positions (parsed : parse tokens = .ok program) :
    ∃ tree, IsParseTree tokens tree ∧ (∀ other, IsParseTree tokens other → other = tree) ∧
      List.Forall₂ Locates program.exprs (tree.exprPhrases false) := by
  obtain ⟨tree, calls, last, rest, stands, yields, whole, atEnd, _⟩ := parse_eq_ok_iff.mp parsed
  have isTree : IsParseTree tokens tree := ⟨stands, last, rest, whole, atEnd⟩
  exact ⟨tree, isTree, fun other isOther => isOther.unique isTree, (stands.located yields).phrases⟩

section

/-- The receiver `(b)` of the call. -/
private def receiver : List Token :=
  [⟨.leftParen, "(", ⟨1, 21⟩⟩, ⟨.objectName, "b", ⟨1, 22⟩⟩, ⟨.rightParen, ")", ⟨1, 23⟩⟩]

private def called : List Token :=
  [⟨.dot, ".", ⟨1, 24⟩⟩, ⟨.objectName, "c", ⟨1, 25⟩⟩, ⟨.leftParen, "(", ⟨1, 26⟩⟩,
    ⟨.rightParen, ")", ⟨1, 27⟩⟩]

/-- The initializer `((b).c() + 1)`. -/
private def sum : List Token :=
  ⟨.leftParen, "(", ⟨1, 20⟩⟩ :: ((receiver ++ called) ++
    [⟨.plus, "+", ⟨1, 29⟩⟩, ⟨.integer, "1", ⟨1, 31⟩⟩]) ++ [⟨.rightParen, ")", ⟨1, 32⟩⟩]

/-- The tokens of `class A { a : B <- ((b).c() + 1); };`. -/
def receiverTokens : List Token :=
  [⟨.classWord, "class", ⟨1, 1⟩⟩, ⟨.typeName, "A", ⟨1, 7⟩⟩, ⟨.leftBrace, "\x7b", ⟨1, 9⟩⟩,
    ⟨.objectName, "a", ⟨1, 11⟩⟩, ⟨.colon, ":", ⟨1, 13⟩⟩, ⟨.typeName, "B", ⟨1, 15⟩⟩,
    ⟨.assign, "<-", ⟨1, 17⟩⟩] ++ sum ++
    [⟨.semicolon, ";", ⟨1, 33⟩⟩, ⟨.rightBrace, "\x7d", ⟨1, 35⟩⟩, ⟨.semicolon, ";", ⟨1, 36⟩⟩,
      ⟨.endOfInput, "$", ⟨1, 37⟩⟩]

def receiverProgram : Program where
  classes := [{
    name := ⟨"A", ⟨1, 7⟩⟩
    parent := none
    features := [.attribute ⟨⟨"a", ⟨1, 11⟩⟩, ⟨"B", ⟨1, 15⟩⟩,
      some (.binary ⟨⟨1, 22⟩, none⟩ .add
        (.dispatch ⟨⟨1, 22⟩, none⟩ (some (.identifier ⟨⟨1, 22⟩, none⟩ "b")) none ⟨"c", ⟨1, 25⟩⟩ [])
        (.integer ⟨⟨1, 31⟩, none⟩ 1))⟩]
    position := ⟨1, 1⟩ }]

theorem parse_receiverTokens : parse receiverTokens = .ok receiverProgram := by
  have name : Reads Phrase.expr [⟨.objectName, "b", ⟨1, 22⟩⟩] (.expr (.identifier ⟨⟨1, 22⟩, none⟩ "b")) :=
    .single _ rfl
  have inner : Reads Phrase.atom receiver (.expr (.identifier ⟨⟨1, 22⟩, none⟩ "b")) :=
    .of_built (.token _ (.cons name (.token _ .nil))) rfl
  have call : Reads Phrase.call called (.call ⟨none, ⟨"c", ⟨1, 25⟩⟩, []⟩) :=
    .of_built (.lexemes called .nil) rfl
  have left : Reads Phrase.callFactor (receiver ++ called) (.expr (.dispatch ⟨⟨1, 22⟩, none⟩
      (some (.identifier ⟨⟨1, 22⟩, none⟩ "b")) none ⟨"c", ⟨1, 25⟩⟩ [])) :=
    .of_built (.cons (inner.widen 1) call.alone) rfl
  have right : Reads Phrase.atom [⟨.integer, "1", ⟨1, 31⟩⟩] (.expr (.integer ⟨⟨1, 31⟩, none⟩ 1)) :=
    .of_built (.token _ .nil) rfl
  have whole := Reads.of_operand .arith ⟨3, rfl⟩
    (.of_built (.cons (left.widen 4) (.token ⟨.plus, "+", ⟨1, 29⟩⟩ (right.widen 4).alone)) rfl)
  have init : Reads Phrase.expr sum _ := .of_atom (.of_built (.token _ (.cons whole (.token _ .nil))) rfl)
  have feature : Reads Phrase.feature _ (.feature (.attribute ⟨⟨"a", ⟨1, 11⟩⟩, ⟨"B", ⟨1, 15⟩⟩, some _⟩)) :=
    .of_built (.lexemes [⟨.objectName, "a", ⟨1, 11⟩⟩, ⟨.colon, ":", ⟨1, 13⟩⟩, ⟨.typeName, "B", ⟨1, 15⟩⟩,
        ⟨.assign, "<-", ⟨1, 17⟩⟩]
      (.cons init (.token ⟨.semicolon, ";", ⟨1, 33⟩⟩ .nil))) rfl
  have only : Reads Phrase.classDef _ (.classDecl ⟨⟨"A", ⟨1, 7⟩⟩, none, _, ⟨1, 1⟩⟩) :=
    .of_built (.lexemes [⟨.classWord, "class", ⟨1, 1⟩⟩, ⟨.typeName, "A", ⟨1, 7⟩⟩, ⟨.leftBrace, "\x7b", ⟨1, 9⟩⟩]
      (.cons (.features (.cons feature .nil))
        (.lexemes [⟨.rightBrace, "\x7d", ⟨1, 35⟩⟩, ⟨.semicolon, ";", ⟨1, 36⟩⟩] .nil))) rfl
  exact parse_of_classes (List.cons_ne_nil _ _) (.cons only .nil) ⟨.endOfInput, "$", ⟨1, 37⟩⟩ rfl rfl

theorem parse_positions_receiver :
    parse receiverTokens = .ok receiverProgram ∧
      receiverProgram.exprs.map Expr.position = [⟨1, 22⟩, ⟨1, 22⟩, ⟨1, 22⟩, ⟨1, 31⟩] ∧
      ∃ tree, IsParseTree receiverTokens tree ∧
        (∀ other, IsParseTree receiverTokens other → other = tree) ∧
        List.Forall₂ Locates receiverProgram.exprs (tree.exprPhrases false) :=
  ⟨parse_receiverTokens, rfl, parse_positions parse_receiverTokens⟩

end

end Program

end CoolLang
