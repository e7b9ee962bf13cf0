import CoolLang.Program.Chain
import CoolLang.Proofs.Program.Parts

/-!
What stands around an expression. A derivation that leaves an expression open is a way through the rules
down to it (`Program.ReadsAround`); what is read is then a function of the expression, which has a place of
its own among all expressions (`Program.exists_place`).
-/

namespace CoolLang

open Program

/-! ### Strings of symbols -/

namespace Program.ReadAll

variable {front back symbols : List Symbol} {tokens tokens' : List Token} {values values' : List Value}

theorem append (first : ReadAll front tokens values) (second : ReadAll back tokens' values') :
    ReadAll (front ++ back) (tokens ++ tokens') (values ++ values') := by
  induction front generalizing tokens values with
  | nil =>
      cases first
      exact second
  | cons symbol front ih =>
      cases first with
      | cons reads others =>
          rw [List.append_assoc]
          exact .cons reads (ih others)

theorem split (whole : ReadAll (front ++ back) tokens values) :
    ∃ tokens₁ tokens₂ values₁ values₂, tokens = tokens₁ ++ tokens₂ ∧ ReadAll front tokens₁ values₁ ∧
      ReadAll back tokens₂ values₂ := by
  induction front generalizing tokens values with
  | nil => exact ⟨[], tokens, [], values, rfl, .nil, whole⟩
  | cons symbol front ih =>
      cases whole with
      | cons reads others =>
          obtain ⟨_, _, _, _, rfl, inFront, inBack⟩ := ih others
          exact ⟨_, _, _, _, (List.append_assoc ..).symm, .cons reads inFront, inBack⟩

theorem ofTokens (tokens : List Token) :
    ReadAll (tokens.map fun token => .terminal token.terminal) tokens (tokens.map .token) := by
  induction tokens with
  | nil => exact .nil
  | cons token tokens ih => exact .token token ih

/-- What is read as a right-hand side is read as the nonterminal. -/
theorem fold {rule : Rule BuildAction} {action : BuildAction} (listed : rule ∈ grammar.rules)
    (has : rule.action = some action)
    (whole : ReadAll (front ++ (rule.right ++ back)) tokens values) :
    ∃ values', ReadAll (front ++ .nonterminal rule.left :: back) tokens values' := by
  obtain ⟨_, _, _, _, rfl, inFront, others⟩ := whole.split
  obtain ⟨_, _, _, _, rfl, inside, inBack⟩ := others.split
  obtain ⟨_, built, _⟩ := exists_gathers listed has inside.suit
  exact ⟨_, inFront.append (.cons (.phrase listed has inside built) inBack)⟩

end Program.ReadAll

namespace Program

/-! ### Around an expression -/

/-- A rule makes something of a value between those that are read for its other symbols. -/
theorem exists_gathers_around {rule : Rule BuildAction} {action : BuildAction} {left right : List Symbol}
    {symbol : Symbol} {front back : List Token} {lefts rights : List Value} {value : Value}
    (listed : rule ∈ grammar.rules) (has : rule.action = some action)
    (sides : rule.right = left ++ symbol :: right) (inFront : ReadAll left front lefts)
    (inBack : ReadAll right back rights) (suits : value.Suits symbol) :
    ∃ whole, action (lefts ++ value :: rights) = some whole ∧
      Gathers rule (lefts ++ value :: rights) whole ∧ whole.Suits (.nonterminal rule.left) := by
  refine exists_gathers listed has ?_
  rw [sides]
  exact List.rel_append inFront.suit (.cons suits inBack.suit)

/-- What is read of the tokens before and after an expression, as a function of the expression. -/
inductive ReadsAround : Symbol → List Token → List Token → (Expr → Value) → Prop where
  | here : ReadsAround Phrase.expr [] [] .expr
  | phrase {rule : Rule BuildAction} {action : BuildAction} {left right : List Symbol} {symbol : Symbol}
      {front before after back : List Token} {lefts rights : List Value} {within whole : Expr → Value}
      (listed : rule ∈ grammar.rules) (has : rule.action = some action)
      (sides : rule.right = left ++ symbol :: right) (inFront : ReadAll left front lefts)
      (inner : ReadsAround symbol before after within) (inBack : ReadAll right back rights)
      (built : ∀ expr, action (lefts ++ within expr :: rights) = some (whole expr)) :
      ReadsAround (.nonterminal rule.left) (front ++ before) (after ++ back) whole

namespace ReadsAround

variable {symbol : Symbol} {before after : List Token} {within : Expr → Value}

theorem suits (around : ReadsAround symbol before after within) (expr : Expr) :
    (within expr).Suits symbol := by
  induction around with
  | here => exact .phrase rfl
  | phrase listed has sides inFront _ inBack built ih =>
      obtain ⟨_, made, _, suits⟩ := exists_gathers_around listed has sides inFront inBack ih
      cases made.symm.trans (built expr)
      exact suits

theorem reads (around : ReadsAround symbol before after within) {word : List Token} {expr : Expr}
    (reads : Reads Phrase.expr word (.expr expr)) :
    Reads symbol (before ++ word ++ after) (within expr) := by
  induction around with
  | here =>
      rw [List.nil_append, List.append_nil]
      exact reads
  | phrase listed has sides inFront _ inBack built ih =>
      refine .phrase listed has ?_ (built expr)
      rw [sides]
      simpa only [List.append_assoc] using inFront.append (.cons ih inBack)

end ReadsAround

/-- How many expressions a rule makes that are no parts of its own. -/
def heads (rule : Rule BuildAction) : Nat :=
  if Phrase.makesExpr rule && !Phrase.wraps rule then 1 else 0

theorem Gathers.parts_eq {rule : Rule BuildAction} {arguments : List Value} {value : Value}
    (gathers : Gathers rule arguments value) :
    ∃ front, front.length = heads rule ∧ value.parts = front ++ arguments.flatMap Value.parts := by
  cases gathers with
  | widened makes wraps =>
      refine ⟨[], by rw [heads, makes, wraps]; rfl, ?_⟩
      simp only [List.flatMap_cons, List.flatMap_nil, List.append_nil, List.nil_append]
  | enclosed makes wraps =>
      refine ⟨[], by rw [heads, makes, wraps]; rfl, ?_⟩
      simp only [List.flatMap_cons, List.flatMap_nil, List.append_nil, List.nil_append, Value.parts]
  | @word _ expr makes bare _ alone =>
      refine ⟨[expr], by rw [heads, makes, bare]; rfl, ?_⟩
      simp only [List.flatMap_cons, List.flatMap_nil, List.append_nil, Value.parts, alone]
  | @composed _ expr makes bare _ _ _ parts =>
      refine ⟨[expr], by rw [heads, makes, bare]; rfl, ?_⟩
      rw [Value.parts, parts]
      rfl
  | gathered other _ _ _ parts =>
      refine ⟨[], by rw [heads, other]; rfl, ?_⟩
      rw [parts, List.nil_append]

/-- The open expression has a place among those of the whole, and those behind it are always the same. -/
theorem ReadsAround.exists_index {symbol : Symbol} {before after : List Token} {within : Expr → Value}
    (around : ReadsAround symbol before after within) :
    ∃ index back, ∀ expr, ∃ front, front.length = index ∧
      (within expr).parts = front ++ (expr :: expr.inside ++ back) := by
  induction around with
  | here => exact ⟨0, [], fun expr => ⟨[], rfl, by rw [Value.parts, List.nil_append, List.append_nil]⟩⟩
  | @phrase rule _ _ _ _ _ _ _ _ lefts rights _ _ listed has sides inFront inner inBack built ih =>
      obtain ⟨index, back, found⟩ := ih
      refine ⟨heads rule + ((lefts.flatMap Value.parts).length + index), back ++ rights.flatMap Value.parts,
        fun expr => ?_⟩
      obtain ⟨_, made, gathers, _⟩ :=
        exists_gathers_around listed has sides inFront inBack (inner.suits expr)
      cases made.symm.trans (built expr)
      obtain ⟨new, length, parts⟩ := gathers.parts_eq
      obtain ⟨front, isIndex, same⟩ := found expr
      refine ⟨new ++ (lefts.flatMap Value.parts ++ front), ?_, ?_⟩
      · rw [List.length_append, List.length_append, length, isIndex]
      · rw [parts, List.flatMap_append, List.flatMap_cons, same]
        simp only [List.append_assoc, List.cons_append]

/-! ### Derivations with an open expression -/

/-- A symbol of a string is read around an expression, and the others as they are. -/
inductive ReadsAllAround : List Symbol → List Token → List Token → Prop where
  | intro {left right : List Symbol} {symbol : Symbol} {front before after back : List Token}
      {lefts rights : List Value} {within : Expr → Value} (inFront : ReadAll left front lefts)
      (inner : ReadsAround symbol before after within) (inBack : ReadAll right back rights) :
      ReadsAllAround (left ++ symbol :: right) (front ++ before) (after ++ back)

/-- An item of two lists stands in the first or in the second. -/
private theorem append_cases {α : Type} {first second left right : List α} {item : α}
    (whole : first ++ second = left ++ item :: right) :
    (∃ rest, first = left ++ item :: rest ∧ right = rest ++ second) ∨
      ∃ front, left = first ++ front ∧ second = front ++ item :: right := by
  induction first generalizing left with
  | nil => exact Or.inr ⟨left, rfl, whole⟩
  | cons head first ih =>
      cases left with
      | nil =>
          obtain ⟨rfl, rfl⟩ := List.cons.inj whole
          exact Or.inl ⟨first, rfl, rfl⟩
      | cons =>
          obtain ⟨rfl, others⟩ := List.cons.inj whole
          rcases ih others with ⟨rest, rfl, rfl⟩ | ⟨front, rfl, rfl⟩
          · exact Or.inl ⟨rest, rfl, rfl⟩
          · exact Or.inr ⟨front, rfl, rfl⟩

theorem ReadsAllAround.fold {rule : Rule BuildAction} {action : BuildAction} {front back : List Symbol}
    {before after : List Token} (listed : rule ∈ grammar.rules) (has : rule.action = some action)
    (around : ReadsAllAround (front ++ (rule.right ++ back)) before after) :
    ReadsAllAround (front ++ .nonterminal rule.left :: back) before after := by
  generalize whole : front ++ (rule.right ++ back) = string at around
  cases around with
  | intro inFront inner inBack =>
      rcases append_cases whole with ⟨rest, rfl, rfl⟩ | ⟨middle, rfl, others⟩
      · obtain ⟨_, folded⟩ := inBack.fold listed has
        rw [List.append_assoc, List.cons_append]
        exact .intro inFront inner folded
      rcases append_cases others with ⟨rest, sides, rfl⟩ | ⟨middle, rfl, rfl⟩
      · -- the rule itself is on the way to the expression
        obtain ⟨_, _, _, _, rfl, outer, inLeft⟩ := inFront.split
        obtain ⟨_, _, _, _, rfl, inRight, outer'⟩ := inBack.split
        choose value built _ using fun expr =>
          exists_gathers_around listed has sides inLeft inRight (inner.suits expr)
        have folded := ReadsAllAround.intro outer (.phrase listed has sides inLeft inner inRight built) outer'
        simpa only [List.append_assoc] using folded
      · obtain ⟨_, folded⟩ := inFront.fold listed has
        rw [← List.cons_append, ← List.append_assoc]
        exact .intro folded inner inBack

theorem exists_action {number : RuleId} {rule : Rule BuildAction} (known : grammar.rule? number = some rule)
    (usable : grammar.Usable (.nonterminal rule.left)) : ∃ action, rule.action = some action := by
  have declared : number ≠ RuleId.augmented := by
    intro augmented
    rw [augmented, grammar_wellFormed.rule?_augmented] at known
    cases known
    exact usable.1 rfl
  obtain ⟨action, has, _⟩ := rules_fit rule (Grammar.WellFormed.mem_tail known declared)
  exact ⟨action, has⟩

theorem readsAllAround_of_derives {string : List Symbol} {before after : List Token}
    (usable : ∀ symbol ∈ string, grammar.Usable symbol)
    (steps : grammar.Derives string
      ((before.map fun token => .terminal token.terminal) ++
        (Phrase.expr : Symbol) :: after.map fun token => .terminal token.terminal)) :
    ReadsAllAround string before after := by
  generalize whole : (before.map fun token => Symbol.terminal token.terminal) ++
    (Phrase.expr : Symbol) :: (after.map fun token => .terminal token.terminal) = last at steps
  induction steps with
  | refl =>
      subst whole
      have around := ReadsAllAround.intro (.ofTokens before) .here (.ofTokens after)
      rwa [List.append_nil, List.nil_append] at around
  | head step _ ih =>
      cases step with
      | @replace front back number rule known =>
          rw [List.forall_mem_append, List.forall_mem_cons] at usable
          obtain ⟨inFront, isUsable, inBack⟩ := usable
          obtain ⟨action, has⟩ := exists_action known isUsable
          refine .fold (List.mem_of_getElem? known) has (ih ?_ whole)
          rw [List.forall_mem_append, List.forall_mem_append]
          exact ⟨inFront, fun symbol => grammar_wellFormed.usable_of_mem_right known, inBack⟩

/-- Where an expression may stand, programs are parsed for all expressions alike. -/
theorem exists_place {before after : List Token} (expects : ExpectsExpr before after) :
    ∃ (place : Expr → Program) (index : Nat) (back : List Expr),
      (∀ expr, (place expr).exprs.drop index = expr :: expr.inside ++ back) ∧
        ∀ {word : List Token} {expr : Expr} {last : Token} (rest : List Token),
          Reads Phrase.expr word (.expr expr) → last.kind = .endOfInput →
            parse (before ++ word ++ after ++ last :: rest) = .ok (place expr) := by
  have around := readsAllAround_of_derives
    (List.forall_mem_singleton.mpr grammar_wellFormed.start_usable) expects
  generalize whole : [Symbol.nonterminal grammar.start] = string at around
  cases around with
  | @intro left right symbol _ _ _ _ _ _ within inFront inner inBack =>
      obtain ⟨rfl, rfl, rfl⟩ : left = [] ∧ symbol = Phrase.program ∧ right = [] := by
        cases left with
        | nil =>
            obtain ⟨rfl, rfl⟩ := List.cons.inj whole
            exact ⟨rfl, rfl, rfl⟩
        | cons => simp at whole
      cases inFront
      cases inBack
      have made (expr : Expr) : ∃ program, within expr = .program program :=
        (@Value.fits_phrase .program _).mp (inner.suits expr).fits
      choose place isPlace using made
      obtain ⟨index, back, found⟩ := inner.exists_index
      refine ⟨place, index, back, fun expr => ?_, fun rest reads atEnd => ?_⟩
      · obtain ⟨front, length, parts⟩ := found expr
        rw [isPlace] at parts
        exact (congrArg _ parts).trans (List.drop_left' length)
      · have whole := inner.reads reads
        rw [isPlace] at whole
        rw [List.nil_append, List.append_nil]
        exact parse_eq_ok_iff_reads.mpr ⟨_, _, rest, whole, rfl, atEnd⟩

end Program

end CoolLang
