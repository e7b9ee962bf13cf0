import CoolLang.Proofs.Program.Table
import CoolLang.Proofs.ShiftReduce.Evaluation

/-!
The variants of values. Every symbol of the grammar has values of one variant: a terminal stands for a
token, and a phrase for what it is called after. Every action, given values of the variants of its
right-hand side, builds a value of the variant of its phrase (`Program.rules_fit`). So every tree has a
value, and no action is ever given values that it does not ask for (`ParseTree.StandsFor.exists_yields`).
-/

namespace CoolLang

/-- What a value may be. -/
inductive Variant where
  | token
  | program
  | classes
  | classDecl
  | features
  | feature
  | params
  | param
  | expr
  | exprs
  | bindings
  | binding
  | branches
  | call
deriving DecidableEq

namespace Value

def variant : Value → Variant
  | token _ => .token
  | program _ => .program
  | classes _ => .classes
  | classDecl _ => .classDecl
  | features _ => .features
  | feature _ => .feature
  | params _ => .params
  | param _ => .param
  | expr _ => .expr
  | exprs _ => .exprs
  | bindings _ => .bindings
  | binding _ => .binding
  | branches _ => .branches
  | call _ => .call

end Value

/-- What a value of a variant holds. -/
def Variant.Content : Variant → Type
  | token => Token
  | program => Program
  | classes => List ClassDecl
  | classDecl => ClassDecl
  | features => List Feature
  | feature => Feature
  | params => List Param
  | param => Param
  | expr => Expr
  | exprs => List Expr
  | bindings => List (Binding Expr)
  | binding => Binding Expr
  | branches => List (Branch Expr)
  | call => CallSuffix

namespace Value

def ofContent : (variant : Variant) → variant.Content → Value
  | .token, content => token content
  | .program, content => program content
  | .classes, content => classes content
  | .classDecl, content => classDecl content
  | .features, content => features content
  | .feature, content => feature content
  | .params, content => params content
  | .param, content => param content
  | .expr, content => expr content
  | .exprs, content => exprs content
  | .bindings, content => bindings content
  | .binding, content => binding content
  | .branches, content => branches content
  | .call, content => call content

theorem variant_eq_iff {variant : Variant} {value : Value} :
    value.variant = variant ↔ ∃ content, value = ofContent variant content := by
  constructor
  · rintro rfl
    cases value <;> exact ⟨_, rfl⟩
  · rintro ⟨content, rfl⟩
    cases variant <;> rfl

end Value

def Phrase.variant : Phrase → Variant
  | whole | program => .program
  | classList => .classes
  | classDef => .classDecl
  | featureList => .features
  | feature => .feature
  | paramList => .params
  | param => .param
  | expr | truth | comparison | arith | term | factor | voidFactor | callFactor | atom | memberCall =>
      .expr
  | exprList | argList => .exprs
  | letList => .bindings
  | letBinding => .binding
  | caseList => .branches
  | call => .call

/-- The variant of the values that a symbol stands for. -/
def Symbol.variant? : Symbol → Option Variant
  | .terminal _ => some .token
  | .nonterminal number => Phrase.all[number]?.map Phrase.variant

def Value.Fits (symbol : Symbol) (value : Value) : Prop :=
  symbol.variant? = some value.variant

namespace Value

theorem fits_phrase {phrase : Phrase} {value : Value} :
    Fits (.nonterminal phrase.nonterminal) value ↔
      ∃ content, value = ofContent phrase.variant content := by
  rw [Fits, Symbol.variant?, Phrase.all_getElem?_nonterminal, Option.map_some, Option.some.injEq,
    eq_comm]
  exact variant_eq_iff

theorem Fits.exists_content {symbol : Symbol} {value : Value} (fits : value.Fits symbol) :
    ∃ content, value = ofContent (symbol.variant?.getD .token) content := by
  rw [fits]
  exact variant_eq_iff.mp rfl

/-- Says of all values that fit the symbols of a right-hand side that they have a property. For the
symbols of a rule this unfolds to a statement about what the values hold. -/
def ForFitting : List Symbol → (List Value → Prop) → Prop
  | [], property => property []
  | symbol :: symbols, property =>
      ∀ content, ForFitting symbols fun values =>
        property (ofContent (symbol.variant?.getD .token) content :: values)

theorem holds_of_fit {symbols : List Symbol} {values : List Value} {property : List Value → Prop}
    (fit : List.Forall₂ Fits symbols values) (all : ForFitting symbols property) : property values := by
  induction fit generalizing property with
  | nil => exact all
  | cons fits _ ih =>
      obtain ⟨content, rfl⟩ := fits.exists_content
      exact ih (all content)

end Value

namespace Program

/-! ### Actions -/

/-- Whether the action of a rule builds what the rule's nonterminal stands for from any values that the
right-hand side stands for. -/
def RuleFits (rule : Rule BuildAction) : Prop :=
  ∃ action, rule.action = some action ∧ ∀ arguments, List.Forall₂ Value.Fits rule.right arguments →
    ∃ value, action arguments = some value ∧ Value.Fits (.nonterminal rule.left) value

private theorem ruleFits_of_all {phrase : Phrase} {right : List Symbol} {action : BuildAction}
    (all : Value.ForFitting right fun arguments =>
      ∃ content, action arguments = some (Value.ofContent phrase.variant content)) :
    RuleFits (phrase.rule right action) := by
  refine ⟨action, rfl, ?_⟩
  intro arguments fit
  obtain ⟨content, built⟩ := Value.holds_of_fit fit all
  exact ⟨_, built, Value.fits_phrase.mpr ⟨content, rfl⟩⟩

/-- Every action builds what its phrase stands for. -/
theorem rules_fit : ∀ rule ∈ grammar.rules.tail, RuleFits rule := by
  simp only [grammar, List.tail_cons, Phrase.classRules, Phrase.featureRules, Phrase.exprRules,
    Phrase.bindingRules, Phrase.operatorRules, Phrase.callRules, Phrase.atomRules,
    List.forall_mem_append, List.forall_mem_cons]
  and_intros
  all_goals first | apply ruleFits_of_all | exact fun _ impossible => nomatch impossible
  -- what is left of a right-hand side is what its values hold
  all_goals repeat intro
  all_goals exact .intro _ rfl

end Program

/-! ### Trees -/

namespace Program

/-- A call of a rule's action with the values that it asks for, and what it builds from them. -/
def CallFits : ReducerCall Token RuleId Value → Prop
  | .shift _ => True
  | .reduce number arguments =>
      ∃ rule action value, grammar.rule? number = some rule ∧ rule.action = some action ∧
        List.Forall₂ Value.Fits rule.right arguments ∧ action arguments = some value ∧
          Value.Fits (.nonterminal rule.left) value

theorem reduce_eq {number : RuleId} {rule : Rule BuildAction} {action : BuildAction}
    {arguments : List Value} {value : Value} (known : grammar.rule? number = some rule)
    (has : rule.action = some action) (built : action arguments = some value) :
    reducer.reduce number arguments = .ok value := by
  simp only [reducer, known, Option.bind_some, has, built]

end Program

namespace ParseTree

open Program

mutual

/-- Every tree for a phrase has a value that fits it. -/
theorem StandsFor.exists_yields {symbol : Symbol} {tree : ParseTree Token}
    (stands : StandsFor grammar Token.terminal symbol tree)
    (inner : symbol ≠ .nonterminal Nonterminal.augmented) :
    ∃ calls value, tree.Yields reducer calls value ∧ value.Fits symbol ∧
      ∀ call ∈ calls, CallFits call := by
  cases stands with
  | leaf token =>
      refine ⟨[.shift token], .token token, .leaf rfl, rfl, ?_⟩
      intro call made
      rw [List.mem_singleton.mp made]
      trivial
  | @node number rule children known inside =>
      have declared : number ≠ RuleId.augmented := by
        intro augmented
        rw [augmented, grammar_wellFormed.rule?_augmented] at known
        cases known
        exact inner rfl
      have usable : ∀ symbol ∈ rule.right, grammar.Usable symbol := fun symbol member =>
        grammar_wellFormed.usable_of_mem_right known member
      obtain ⟨calls, arguments, yield, fit, callsFit⟩ := inside.exists_yield usable
      obtain ⟨action, has, builds⟩ := rules_fit rule (Grammar.WellFormed.mem_tail known declared)
      obtain ⟨value, built, fits⟩ := builds arguments fit
      refine ⟨_, value, .node yield (reduce_eq known has built), fits, ?_⟩
      intro call made
      rcases List.mem_append.mp made with before | isLast
      · exact callsFit call before
      · rw [List.mem_singleton.mp isLast]
        exact ⟨rule, action, value, known, has, fit, built, fits⟩

theorem StandForAll.exists_yield {symbols : List Symbol} {trees : List (ParseTree Token)}
    (stand : StandForAll grammar Token.terminal symbols trees)
    (usable : ∀ symbol ∈ symbols, grammar.Usable symbol) :
    ∃ calls values, YieldAll reducer trees calls values ∧ List.Forall₂ Value.Fits symbols values ∧
      ∀ call ∈ calls, CallFits call := by
  cases stand with
  | nil => exact ⟨[], [], .nil, .nil, fun _ impossible => nomatch impossible⟩
  | @cons symbol symbols tree trees first others =>
      obtain ⟨isUsable, usable⟩ := List.forall_mem_cons.mp usable
      have inner : symbol ≠ .nonterminal Nonterminal.augmented := by
        intro augmented
        rw [augmented] at isUsable
        exact isUsable.1 rfl
      obtain ⟨calls, value, yields, fits, callsFit⟩ := first.exists_yields inner
      obtain ⟨more, values, yield, fit, moreFit⟩ := others.exists_yield usable
      refine ⟨calls ++ more, value :: values, .cons yields yield, .cons fits fit, ?_⟩
      intro call made
      rcases List.mem_append.mp made with before | after
      · exact callsFit call before
      · exact moreFit call after

end

end ParseTree

end CoolLang
