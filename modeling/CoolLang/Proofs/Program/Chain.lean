import CoolLang.Proofs.Program.Surrounding

/-!
Chains of operators get the right tree. There is one way to nest a chain by the levels of its operators
(`OperatorTree.Nested.unique`), and the parser finds it wherever the grammar has an expression
(`Program.parse_chain`).
-/

namespace CoolLang

/-! ### Nesting -/

namespace OperatorTree

variable {tree other left right : OperatorTree} {operator : Operator} {last : Expr}
  {more : List (Operator × Expr)}

theorem first_extend (tree : OperatorTree) (operator : Operator) (last : Expr) :
    (tree.extend operator last).first = tree.first := by
  cases tree with
  | operand => rfl
  | join =>
      rw [extend]
      split <;> rfl

theorem links_extend (tree : OperatorTree) (operator : Operator) (last : Expr) :
    (tree.extend operator last).links = tree.links ++ [(operator, last)] := by
  induction tree with
  | operand => rfl
  | join other left right _ ih =>
      rw [extend]
      split
      · rw [links, links, ih, first_extend, List.append_assoc, List.cons_append]
      · rfl

theorem Nested.extend (nested : tree.Nested) : (tree.extend operator last).Nested := by
  induction tree with
  | operand => exact ⟨trivial, trivial, List.forall_mem_nil _, List.forall_mem_nil _⟩
  | join other left right _ ih =>
      obtain ⟨inLeft, inRight, atLeft, atRight⟩ := nested
      rw [OperatorTree.extend]
      split
      · next tighter =>
          refine ⟨inLeft, ih inRight, atLeft, ?_⟩
          rw [links_extend, List.forall_mem_append, List.forall_mem_singleton]
          exact ⟨atRight, tighter⟩
      · next loose =>
          have level := Nat.le_of_not_lt loose
          refine ⟨⟨inLeft, inRight, atLeft, atRight⟩, trivial, ?_, List.forall_mem_nil _⟩
          rw [links, List.forall_mem_append, List.forall_mem_cons]
          exact ⟨fun link member => level.trans (atLeft link member), level,
            fun link member => level.trans (atRight link member).le⟩

theorem first_ofChain (first : Expr) (links : List (Operator × Expr)) :
    (ofChain first links).first = first := by
  induction links using List.reverseRecOn with
  | nil => rfl
  | append_singleton links link ih =>
      rw [ofChain, extendAll, List.foldl_concat, first_extend]
      exact ih

theorem links_ofChain (first : Expr) (links : List (Operator × Expr)) :
    (ofChain first links).links = links := by
  induction links using List.reverseRecOn with
  | nil => rfl
  | append_singleton links link ih =>
      rw [ofChain, extendAll, List.foldl_concat, links_extend]
      exact congrArg (· ++ [link]) ih

theorem nested_ofChain (first : Expr) (links : List (Operator × Expr)) : (ofChain first links).Nested := by
  induction links using List.reverseRecOn with
  | nil => trivial
  | append_singleton links link ih =>
      rw [ofChain, extendAll, List.foldl_concat]
      exact ih.extend

/-- Tighter operators go on with the right operand. -/
theorem extendAll_join (tighter : ∀ link ∈ more, operator.level < link.1.level) :
    (join operator left right).extendAll more = join operator left (right.extendAll more) := by
  induction more generalizing right with
  | nil => rfl
  | cons link more ih =>
      obtain ⟨isTighter, tighter⟩ := List.forall_mem_cons.mp tighter
      rw [extendAll, List.foldl_cons, OperatorTree.extend, if_pos isTighter]
      exact ih tighter

/-- An operator that binds no tighter than any other takes all of the operands. -/
theorem extend_of_le (loose : ∀ link ∈ tree.links, operator.level ≤ link.1.level) :
    tree.extend operator last = join operator tree (operand last) := by
  cases tree with
  | operand => rfl
  | join other left right =>
      have level := loose (other, right.first) (List.mem_append_right _ List.mem_cons_self)
      rw [OperatorTree.extend, if_neg (Nat.not_lt.mpr level)]

theorem Nested.eq_ofChain (nested : tree.Nested) : tree = ofChain tree.first tree.links := by
  induction tree with
  | operand => rfl
  | join operator left right ihLeft ihRight =>
      obtain ⟨inLeft, inRight, atLeft, atRight⟩ := nested
      calc
        join operator left right = join operator left (ofChain right.first right.links) := by
          rw [← ihRight inRight]
        _ = (join operator left (operand right.first)).extendAll right.links :=
          (extendAll_join atRight).symm
        _ = ((ofChain left.first left.links).extend operator right.first).extendAll right.links := by
          rw [← ihLeft inLeft, extend_of_le atLeft]
        _ = ofChain left.first (left.links ++ (operator, right.first) :: right.links) := by
          rw [ofChain, ofChain, extendAll, extendAll, extendAll, List.foldl_append, List.foldl_cons]

/-- A chain is nested in one way. -/
theorem Nested.unique (nested : tree.Nested) (nested' : other.Nested) (first : other.first = tree.first)
    (links : other.links = tree.links) : other = tree := by
  rw [nested.eq_ofChain, nested'.eq_ofChain, first, links]

example (a b c d e : Expr) :
    ofChain a [(.less, b), (.add, c), (.mul, d), (.sub, e)] =
      join .less (operand a)
        (join .sub (join .add (operand b) (join .mul (operand c) (operand d))) (operand e)) :=
  rfl

end OperatorTree

/-! ### Reading -/

/-- The phrase for operands that are joined by operators of a level or by tighter ones. -/
def Phrase.ofLevel : Nat → Phrase
  | 0 => comparison
  | 1 => arith
  | 2 => term
  | _ => factor

namespace Program

open Rendering

section

variable {tokens front back : List Token} {expr left right : Expr} {sign : Token} {operator : Operator}

theorem Reads.loosen {level : Nat} (reads : Reads (Phrase.ofLevel (level + 1)) tokens (.expr expr)) :
    Reads (Phrase.ofLevel level) tokens (.expr expr) := by
  match level, reads with
  | 0, reads | 1, reads | 2, reads => exact reads.wider
  | _ + 3, reads => exact reads

theorem Reads.of_le {loose tight : Nat} (le : loose ≤ tight)
    (reads : Reads (Phrase.ofLevel tight) tokens (.expr expr)) :
    Reads (Phrase.ofLevel loose) tokens (.expr expr) := by
  induction le with
  | refl => exact reads
  | step _ ih => exact ih reads.loosen

theorem Reads.ofLevel (level : Nat) (reads : Reads Phrase.atom tokens (.expr expr)) :
    Reads (Phrase.ofLevel level) tokens (.expr expr) := by
  have tightest : Reads (Phrase.ofLevel (level + 3)) tokens (.expr expr) := reads.widen 3
  exact tightest.of_le (Nat.le_add_right level 3)

/-- An operator joins what binds no less tightly on its left and what binds tighter on its right. -/
theorem Reads.join (isSign : sign.kind = operatorKind operator)
    (inLeft : Reads (Phrase.ofLevel operator.level) front (.expr left))
    (inRight : Reads (Phrase.ofLevel (operator.level + 1)) back (.expr right)) :
    Reads (Phrase.ofLevel operator.level) (front ++ sign :: back)
      (.expr (.binary ⟨left.position, none⟩ operator left right)) := by
  obtain ⟨kind, lexeme, position⟩ := sign
  obtain rfl : kind = operatorKind operator := isSign
  cases operator <;> exact .of_built (.cons inLeft (.token _ inRight.alone)) rfl

/-- Whether an operator and the operand behind it are read from a token and those behind it. -/
def ReadsLink (written : Token × List Token) (link : Operator × Expr) : Prop :=
  written.1.kind = operatorKind link.1 ∧ Reads Phrase.atom written.2 (.expr link.2)

/-- A chain is read as the tree that it is nested to. The level is that of the loosest operator or less. -/
theorem reads_nested {tree : OperatorTree} (nested : tree.Nested) {first : List Token}
    {links : List (Token × List Token)} {level : Nat}
    (tight : ∀ link ∈ tree.links, level ≤ link.1.level)
    (inFirst : Reads Phrase.atom first (.expr tree.first))
    (inLinks : List.Forall₂ ReadsLink links tree.links) :
    Reads (Phrase.ofLevel level) (chainTokens first links) (.expr tree.expr) := by
  induction tree generalizing first links level with
  | operand expr =>
      cases inLinks
      rw [chainTokens, List.flatMap_nil, List.append_nil]
      exact inFirst.ofLevel level
  | join operator left right ihLeft ihRight =>
      obtain ⟨nestedLeft, nestedRight, atLeft, atRight⟩ := nested
      rw [OperatorTree.links, List.forall_mem_append, List.forall_mem_cons] at tight
      have fronts := List.forall₂_take_append _ _ _ inLinks
      have backs := List.forall₂_drop_append _ _ _ inLinks
      rw [← List.take_append_drop left.links.length links]
      generalize links.take left.links.length = before at fronts ⊢
      generalize links.drop left.links.length = others at backs ⊢
      obtain ⟨⟨sign, second⟩, after, ⟨isSign, inSecond⟩, inAfter, rfl⟩ :=
        List.forall₂_cons_right_iff.mp backs
      have joined := Reads.join isSign (ihLeft nestedLeft atLeft inFirst fronts)
        (ihRight nestedRight atRight inSecond inAfter)
      rw [chainTokens, List.flatMap_append, List.flatMap_cons, ← List.append_assoc]
      exact joined.of_le tight.2.1

end

/-! ### Chains in a program -/

theorem IsAtom.exists_reads {tokens : List Token} (isAtom : IsAtom tokens) :
    ∃ expr, Reads Phrase.atom tokens (.expr expr) := by
  obtain ⟨trees, stand, leaves⟩ := Grammar.Derives.exists_trees isAtom
  obtain ⟨tree, rfl, stands⟩ := stand.singleton
  obtain ⟨calls, value, yields, fits, _⟩ := stands.exists_yields (by decide)
  obtain ⟨expr, rfl⟩ := (@Value.fits_phrase .atom value).mp fits
  rw [← leaves, ParseTree.frontiers_singleton]
  exact ⟨expr, reads_of_tree stands yields⟩

theorem exists_operator : ∀ kind ∈ TokenKind.operators, ∃ operator, kind = operatorKind operator := by
  intro kind member
  fin_cases member
  exacts [⟨.add, rfl⟩, ⟨.sub, rfl⟩, ⟨.mul, rfl⟩, ⟨.div, rfl⟩, ⟨.less, rfl⟩, ⟨.lessEqual, rfl⟩, ⟨.equal, rfl⟩]

theorem exists_readsLinks {links : List (Token × List Token)}
    (written : ∀ link ∈ links, link.1.kind ∈ TokenKind.operators ∧ IsAtom link.2) :
    ∃ read, List.Forall₂ ReadsLink links read := by
  induction links with
  | nil => exact ⟨[], .nil⟩
  | cons link links ih =>
      obtain ⟨⟨isOperator, isAtom⟩, others⟩ := List.forall_mem_cons.mp written
      obtain ⟨operator, isSign⟩ := exists_operator _ isOperator
      obtain ⟨expr, reads⟩ := isAtom.exists_reads
      obtain ⟨read, inOthers⟩ := ih others
      exact ⟨(operator, expr) :: read, .cons ⟨isSign, reads⟩ inOthers⟩

/-- Wherever an expression may stand, a chain of operators is parsed as the tree that its operands nest to
by the levels of the operators, where each operand is what it is parsed as in the place of the chain. -/
theorem parse_chain {before after : List Token} (expects : ExpectsExpr before after) :
    ∃ (place : Expr → Program) (index : Nat) (back : List Expr),
      (∀ expr, (place expr).exprs.drop index = expr :: expr.inside ++ back) ∧
        ∀ {first : List Token} {links : List (Token × List Token)} {last : Token} (rest : List Token),
          IsAtom first → (∀ link ∈ links, link.1.kind ∈ TokenKind.operators ∧ IsAtom link.2) →
            last.kind = .endOfInput →
              ∃ tree : OperatorTree, tree.Nested ∧
                (∀ other : OperatorTree, other.Nested → other.first = tree.first →
                  other.links = tree.links → other = tree) ∧
                parse (before ++ first ++ after ++ last :: rest) = .ok (place tree.first) ∧
                List.Forall₂ (fun written link => written.1.kind = operatorKind link.1 ∧
                  parse (before ++ written.2 ++ after ++ last :: rest) = .ok (place link.2))
                  links tree.links ∧
                parse (before ++ chainTokens first links ++ after ++ last :: rest) =
                  .ok (place tree.expr) := by
  obtain ⟨place, index, back, placed, parsed⟩ := exists_place expects
  refine ⟨place, index, back, placed, fun {first links last} rest isAtom written atEnd => ?_⟩
  obtain ⟨expr, inFirst⟩ := isAtom.exists_reads
  obtain ⟨read, inLinks⟩ := exists_readsLinks written
  have nested := OperatorTree.nested_ofChain expr read
  have isFirst := OperatorTree.first_ofChain expr read
  have areLinks := OperatorTree.links_ofChain expr read
  generalize OperatorTree.ofChain expr read = tree at nested isFirst areLinks
  subst isFirst areLinks
  have whole := reads_nested nested (fun _ _ => Nat.zero_le _) inFirst inLinks
  refine ⟨tree, nested, fun other nested' => nested.unique nested', ?_, ?_, ?_⟩
  · exact parsed rest inFirst.of_atom atEnd
  · exact inLinks.imp fun _ _ link => ⟨link.1, parsed rest link.2.of_atom atEnd⟩
  · exact parsed rest (whole.of_operand .comparison ⟨2, rfl⟩) atEnd

section

private def objectNamed (name : String) : Token :=
  spelled .objectName name

/-- Before the initializer of an attribute. -/
def initializerBefore : List Token :=
  [sign .classWord, spelled .typeName "A", sign .leftBrace, objectNamed "a", sign .colon,
    spelled .typeName "B", sign .assign]

def initializerAfter : List Token :=
  [sign .semicolon, sign .rightBrace, sign .semicolon]

/-- A step by the rule with these sides. -/
private theorem rewrites {phrase : Phrase} {right : List Symbol} (front back : List Symbol) (number : RuleId)
    (sides : (grammar.rule? number).map (fun rule => (rule.left, rule.right)) =
      some (phrase.nonterminal, right)) :
    grammar.Rewrites (front ++ (phrase : Symbol) :: back) (front ++ (right ++ back)) := by
  obtain ⟨rule, known, same⟩ := Option.map_eq_some_iff.mp sides
  obtain ⟨left, rfl⟩ := Prod.mk.inj same
  rw [← left]
  exact .replace front back known

theorem expectsExpr_initializer : ExpectsExpr initializerBefore initializerAfter := by
  refine .head (rewrites [] [] 1 rfl) ?_
  refine .head (rewrites [] [] 3 rfl) ?_
  refine .head (rewrites [] [] 4 rfl) ?_
  refine .head (rewrites [_, _, _] [_, _] 6 rfl) ?_
  refine .head (rewrites [_, _, _] [_, _, _] 9 rfl) ?_
  refine .head (rewrites [_, _, _, _, _, _, _, _, _] [_, _] 7 rfl) ?_
  exact .refl _

theorem isAtom_objectNamed (name : String) : IsAtom [objectNamed name] :=
  .single (@rewrites .atom [TokenKind.objectName] [] [] 59 rfl)

/-- What follows the first operand in `a < b + c * d - e`. -/
def mixedLinks : List (Token × List Token) :=
  [(sign .less, [objectNamed "b"]), (sign .plus, [objectNamed "c"]), (sign .star, [objectNamed "d"]),
    (sign .minus, [objectNamed "e"])]

theorem parse_chain_initializer :
    ExpectsExpr initializerBefore initializerAfter ∧ IsAtom [objectNamed "a"] ∧
      (∀ link ∈ mixedLinks, link.1.kind ∈ TokenKind.operators ∧ IsAtom link.2) ∧
      ∃ (place : Expr → Program) (index : Nat) (back : List Expr),
        (∀ expr, (place expr).exprs.drop index = expr :: expr.inside ++ back) ∧
          ∃ tree : OperatorTree, tree.Nested ∧
            (∀ other : OperatorTree, other.Nested → other.first = tree.first →
              other.links = tree.links → other = tree) ∧
            parse (initializerBefore ++ [objectNamed "a"] ++ initializerAfter ++ [sign .endOfInput]) =
              .ok (place tree.first) ∧
            List.Forall₂ (fun written link => written.1.kind = operatorKind link.1 ∧
              parse (initializerBefore ++ written.2 ++ initializerAfter ++ [sign .endOfInput]) =
                .ok (place link.2)) mixedLinks tree.links ∧
            parse (initializerBefore ++ chainTokens [objectNamed "a"] mixedLinks ++ initializerAfter ++
              [sign .endOfInput]) = .ok (place tree.expr) := by
  have written : ∀ link ∈ mixedLinks, link.1.kind ∈ TokenKind.operators ∧ IsAtom link.2 := by
    simp only [mixedLinks, List.forall_mem_cons]
    exact ⟨⟨by decide, isAtom_objectNamed "b"⟩, ⟨by decide, isAtom_objectNamed "c"⟩,
      ⟨by decide, isAtom_objectNamed "d"⟩, ⟨by decide, isAtom_objectNamed "e"⟩, List.forall_mem_nil _⟩
  obtain ⟨place, index, back, placed, chain⟩ := parse_chain expectsExpr_initializer
  exact ⟨expectsExpr_initializer, isAtom_objectNamed "a", written, place, index, back, placed,
    chain [] (isAtom_objectNamed "a") written rfl⟩

end

end Program

end CoolLang
