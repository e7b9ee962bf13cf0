import CoolLang.Grammar.Derivation

/-!
What strings vanish and which terminals begin them, by the structure of the rules. `Vanishes` says
that a string derives the empty string (`vanishes_iff_derives`), `Begins` that it derives something
that starts with a given terminal (`begins_iff_derives`). The terminal that comes first in a string
before the end of input is the one that begins the string with `$` after it.
-/

namespace CoolLang

namespace Grammar

variable {α : Type}

inductive Vanishes (grammar : Grammar α) : List Symbol → Prop where
  | nil : Vanishes grammar []
  | cons {number : RuleId} {rule : Rule α} {rest : List Symbol}
      (known : grammar.rule? number = some rule) (inside : Vanishes grammar rule.right)
      (others : Vanishes grammar rest) : Vanishes grammar (.nonterminal rule.left :: rest)

inductive Begins (grammar : Grammar α) : Terminal → List Symbol → Prop where
  | terminal (terminal : Terminal) (rest : List Symbol) :
      Begins grammar terminal (.terminal terminal :: rest)
  | rule {number : RuleId} {rule : Rule α} {terminal : Terminal} (rest : List Symbol)
      (known : grammar.rule? number = some rule) (inside : Begins grammar terminal rule.right) :
      Begins grammar terminal (.nonterminal rule.left :: rest)
  | skip {symbol : Symbol} {rest : List Symbol} {terminal : Terminal}
      (empty : Vanishes grammar [symbol]) (others : Begins grammar terminal rest) :
      Begins grammar terminal (symbol :: rest)

variable {grammar : Grammar α}

namespace Vanishes

theorem append {front back : List Symbol} (first : grammar.Vanishes front)
    (second : grammar.Vanishes back) : grammar.Vanishes (front ++ back) := by
  induction first with
  | nil => exact second
  | cons known inside _ _ ih => exact .cons known inside ih

theorem append_iff {front back : List Symbol} :
    grammar.Vanishes (front ++ back) ↔ grammar.Vanishes front ∧ grammar.Vanishes back := by
  constructor
  · intro both
    induction front with
    | nil => exact ⟨.nil, both⟩
    | cons symbol front ih =>
        rw [List.cons_append] at both
        cases both with
        | cons known inside others =>
            obtain ⟨first, second⟩ := ih others
            exact ⟨.cons known inside first, second⟩
  · exact fun both => both.1.append both.2

theorem cons_iff {symbol : Symbol} {rest : List Symbol} :
    grammar.Vanishes (symbol :: rest) ↔ grammar.Vanishes [symbol] ∧ grammar.Vanishes rest :=
  @append_iff _ _ [symbol] rest

theorem not_terminal {terminal : Terminal} {rest : List Symbol} :
    ¬grammar.Vanishes (.terminal terminal :: rest) := by
  intro impossible
  cases impossible

theorem derives {string : List Symbol} (vanishes : grammar.Vanishes string) :
    grammar.Derives string [] := by
  induction vanishes with
  | nil => exact .refl []
  | @cons number rule rest known _ _ ihInside ihOthers =>
      have step := Rewrites.replace [] rest known
      exact .head step (ihInside.append ihOthers)

end Vanishes

namespace Begins

theorem append_left {terminal : Terminal} {front : List Symbol}
    (begins : grammar.Begins terminal front) (back : List Symbol) :
    grammar.Begins terminal (front ++ back) := by
  induction begins with
  | terminal terminal rest => exact .terminal terminal (rest ++ back)
  | rule rest known inside _ => exact .rule (rest ++ back) known inside
  | skip empty _ ih => exact .skip empty ih

theorem append_right {terminal : Terminal} {front back : List Symbol}
    (vanishes : grammar.Vanishes front) (begins : grammar.Begins terminal back) :
    grammar.Begins terminal (front ++ back) := by
  induction front with
  | nil => exact begins
  | cons symbol front ih =>
      obtain ⟨first, others⟩ := Vanishes.cons_iff.mp vanishes
      exact .skip first (ih others)

theorem append_iff {terminal : Terminal} {front back : List Symbol} :
    grammar.Begins terminal (front ++ back) ↔
      grammar.Begins terminal front ∨ grammar.Vanishes front ∧ grammar.Begins terminal back := by
  constructor
  · intro begins
    induction front with
    | nil => exact Or.inr ⟨.nil, begins⟩
    | cons symbol front ih =>
        rw [List.cons_append] at begins
        cases begins with
        | terminal => exact Or.inl (.terminal terminal front)
        | rule _ known inside => exact Or.inl (.rule front known inside)
        | skip empty others =>
            rcases ih others with inFront | ⟨vanishes, inBack⟩
            · exact Or.inl (.skip empty inFront)
            · exact Or.inr ⟨Vanishes.cons_iff.mpr ⟨empty, vanishes⟩, inBack⟩
  · rintro (inFront | ⟨vanishes, inBack⟩)
    · exact inFront.append_left back
    · exact append_right vanishes inBack

theorem cons_iff {terminal : Terminal} {symbol : Symbol} {rest : List Symbol} :
    grammar.Begins terminal (symbol :: rest) ↔
      grammar.Begins terminal [symbol] ∨
        grammar.Vanishes [symbol] ∧ grammar.Begins terminal rest :=
  @append_iff _ _ _ [symbol] rest

/-- Only the terminal itself begins a terminal. -/
theorem eq_of_terminal {terminal other : Terminal} {rest : List Symbol}
    (begins : grammar.Begins terminal (.terminal other :: rest)) : terminal = other := by
  cases begins with
  | terminal => rfl
  | skip empty => exact absurd empty Vanishes.not_terminal

theorem derives {terminal : Terminal} {string : List Symbol}
    (begins : grammar.Begins terminal string) :
    ∃ rest, grammar.Derives string (.terminal terminal :: rest) := by
  induction begins with
  | terminal terminal rest => exact ⟨rest, .refl _⟩
  | rule rest known _ ih =>
      obtain ⟨after, steps⟩ := ih
      have step := Rewrites.replace [] rest known
      exact ⟨after ++ rest, .head step (steps.append (.refl rest))⟩
  | skip empty _ ih =>
      obtain ⟨after, steps⟩ := ih
      exact ⟨after, empty.derives.append steps⟩

end Begins

/-! ### Derivations keep what begins and what vanishes -/

theorem Rewrites.vanishes {first last : List Symbol} (step : grammar.Rewrites first last)
    (vanishes : grammar.Vanishes last) : grammar.Vanishes first := by
  cases step with
  | replace front back known =>
      obtain ⟨inFront, inside, inBack⟩ : grammar.Vanishes front ∧ _ ∧ grammar.Vanishes back := by
        rwa [Vanishes.append_iff, Vanishes.append_iff] at vanishes
      exact inFront.append (.cons known inside inBack)

theorem Rewrites.begins {first last : List Symbol} (step : grammar.Rewrites first last)
    {terminal : Terminal} (begins : grammar.Begins terminal last) :
    grammar.Begins terminal first := by
  cases step with
  | replace front back known =>
      rw [Begins.append_iff, Begins.append_iff] at begins
      rcases begins with inFront | ⟨vanishes, inside | ⟨empty, inBack⟩⟩
      · exact inFront.append_left _
      · exact .append_right vanishes (.rule back known inside)
      · exact .append_right vanishes (.skip (.cons known empty .nil) inBack)

theorem Derives.vanishes {first last : List Symbol} (steps : grammar.Derives first last)
    (vanishes : grammar.Vanishes last) : grammar.Vanishes first := by
  induction steps with
  | refl => exact vanishes
  | head step _ ih => exact step.vanishes (ih vanishes)

theorem Derives.begins {first last : List Symbol} (steps : grammar.Derives first last)
    {terminal : Terminal} (begins : grammar.Begins terminal last) :
    grammar.Begins terminal first := by
  induction steps with
  | refl => exact begins
  | head step _ ih => exact step.begins (ih begins)

theorem vanishes_iff_derives {string : List Symbol} :
    grammar.Vanishes string ↔ grammar.Derives string [] :=
  ⟨Vanishes.derives, fun steps => steps.vanishes .nil⟩

theorem begins_iff_derives {terminal : Terminal} {string : List Symbol} :
    grammar.Begins terminal string ↔
      ∃ rest, grammar.Derives string (.terminal terminal :: rest) :=
  ⟨Begins.derives, fun ⟨rest, steps⟩ => steps.begins (.terminal terminal rest)⟩

end Grammar

end CoolLang
