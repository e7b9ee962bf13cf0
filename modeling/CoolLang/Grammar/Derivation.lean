import CoolLang.Grammar.Basic

/-!
What a grammar derives. A rewriting step replaces one nonterminal by the right-hand side of one of its
rules; a derivation is any number of steps. In a rightmost derivation only terminals stand after the
nonterminal that is replaced, so it is given by its rules alone (`RightmostDerives`). Derivations go on
inside any surroundings (`Derives.surround`).
-/

namespace CoolLang

namespace Grammar

variable {α : Type}

/-- One rewriting step. -/
inductive Rewrites (grammar : Grammar α) : List Symbol → List Symbol → Prop where
  | replace (front back : List Symbol) {number : RuleId} {rule : Rule α}
      (known : grammar.rule? number = some rule) :
      Rewrites grammar (front ++ .nonterminal rule.left :: back) (front ++ (rule.right ++ back))

/-- Any number of rewriting steps. -/
inductive Derives (grammar : Grammar α) : List Symbol → List Symbol → Prop where
  | refl (string : List Symbol) : Derives grammar string string
  | head {first second last : List Symbol} (step : Rewrites grammar first second)
      (steps : Derives grammar second last) : Derives grammar first last

/-- A derivation by the listed rules in order, each applied to the last nonterminal. -/
inductive RightmostDerives (grammar : Grammar α) :
    List RuleId → List Symbol → List Symbol → Prop where
  | refl (string : List Symbol) : RightmostDerives grammar [] string string
  | head (front : List Symbol) (back : List Terminal) {number : RuleId} {rule : Rule α}
      {numbers : List RuleId} {last : List Symbol} (known : grammar.rule? number = some rule)
      (steps : RightmostDerives grammar numbers (front ++ (rule.right ++ back.map .terminal)) last) :
      RightmostDerives grammar (number :: numbers)
        (front ++ .nonterminal rule.left :: back.map .terminal) last

/-- A word of terminals that the start symbol derives. -/
def Generates (grammar : Grammar α) (word : List Terminal) : Prop :=
  grammar.Derives [.nonterminal grammar.start] (word.map .terminal)

/-- Whether the start symbol derives a word that goes on from a given one. -/
def GeneratesFrom (grammar : Grammar α) (word : List Terminal) : Prop :=
  ∃ rest, grammar.Generates (word ++ rest)

namespace Derives

variable {grammar : Grammar α}

theorem trans {first second last : List Symbol} (front : grammar.Derives first second)
    (back : grammar.Derives second last) : grammar.Derives first last := by
  induction front with
  | refl => exact back
  | head step _ ih => exact .head step (ih back)

theorem single {first last : List Symbol} (step : grammar.Rewrites first last) :
    grammar.Derives first last :=
  .head step (.refl last)

theorem surround {first last : List Symbol} (front back : List Symbol)
    (steps : grammar.Derives first last) :
    grammar.Derives (front ++ first ++ back) (front ++ last ++ back) := by
  induction steps with
  | refl => exact .refl _
  | head step _ ih =>
      cases step with
      | replace before after known =>
          have step := Rewrites.replace (front ++ before) (after ++ back) known
          simp only [List.append_assoc, List.cons_append] at step ih ⊢
          exact .head step ih

/-- Two strings side by side derive what each of them derives. -/
theorem append {first last first' last' : List Symbol} (left : grammar.Derives first last)
    (right : grammar.Derives first' last') :
    grammar.Derives (first ++ first') (last ++ last') := by
  have front := left.surround [] first'
  have back := right.surround last []
  simp only [List.nil_append, List.append_nil] at front back
  exact front.trans back

end Derives

/-- A rightmost derivation is a derivation. -/
theorem RightmostDerives.derives {grammar : Grammar α} {numbers : List RuleId}
    {first last : List Symbol} (steps : grammar.RightmostDerives numbers first last) :
    grammar.Derives first last := by
  induction steps with
  | refl string => exact .refl string
  | head front back known _ ih => exact .head (.replace front _ known) ih

end Grammar

end CoolLang
