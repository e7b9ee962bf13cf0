import CoolLang.Proofs.Grammar.Beginning
import CoolLang.Proofs.Grammar.Declared

/-!
Which terminals can stand right after a nonterminal, by the structure of the rules (`Grammar.Follows`).
Every rule counts, also one that the start symbol does not reach: a terminal follows a nonterminal
exactly if some nonterminal derives a string in which it stands right after it
(`follows_iff_derives`). The end of input stands in no right-hand side; it follows what `$start`
derives at the end of a string (`follows_eoi_iff_derives`).
-/

namespace CoolLang

namespace Grammar

variable {α : Type}

/-- Whether some rule for `left` has the nonterminal in its right-hand side, with `after` behind it. -/
def Occurs (grammar : Grammar α) (nonterminal left : Nonterminal) (after : List Symbol) : Prop :=
  ∃ number rule before, grammar.rule? number = some rule ∧ rule.left = left ∧
    rule.right = before ++ .nonterminal nonterminal :: after

inductive Follows (grammar : Grammar α) (terminal : Terminal) : Nonterminal → Prop where
  | start (eoi : terminal = Terminal.eoi) : Follows grammar terminal Nonterminal.augmented
  | begins {nonterminal left : Nonterminal} {after : List Symbol}
      (occurs : grammar.Occurs nonterminal left after) (begins : grammar.Begins terminal after) :
      Follows grammar terminal nonterminal
  | inherits {nonterminal left : Nonterminal} {after : List Symbol}
      (occurs : grammar.Occurs nonterminal left after) (vanishes : grammar.Vanishes after)
      (others : Follows grammar terminal left) : Follows grammar terminal nonterminal

variable {grammar : Grammar α} {terminal : Terminal} {nonterminal left : Nonterminal}
  {after : List Symbol}

/-! ### Occurrences in well-formed grammars -/

namespace Occurs

theorem left_declared (wellFormed : grammar.WellFormed)
    (occurs : grammar.Occurs nonterminal left after) : grammar.Declared (.nonterminal left) := by
  obtain ⟨number, rule, before, known, rfl, _⟩ := occurs
  exact wellFormed.left_lt known

theorem usable (wellFormed : grammar.WellFormed) (occurs : grammar.Occurs nonterminal left after)
    {symbol : Symbol} (member : symbol ∈ .nonterminal nonterminal :: after) :
    grammar.Usable symbol := by
  obtain ⟨number, rule, before, known, _, right⟩ := occurs
  apply wellFormed.usable_of_mem_right known
  rw [right]
  exact List.mem_append_right before member

/-- The nonterminal's surroundings in the right-hand side of its rule, as a derivation. -/
theorem derives (occurs : grammar.Occurs nonterminal left after) :
    ∃ before, grammar.Derives [.nonterminal left] (before ++ .nonterminal nonterminal :: after) := by
  obtain ⟨number, rule, before, known, rfl, right⟩ := occurs
  have step := Rewrites.replace [] [] known
  rw [List.nil_append, List.nil_append, List.append_nil, right] at step
  exact ⟨before, .single step⟩

theorem derives_last (occurs : grammar.Occurs nonterminal left after)
    (vanishes : grammar.Vanishes after) :
    ∃ before, grammar.Derives [.nonterminal left] (before ++ [.nonterminal nonterminal]) := by
  obtain ⟨before, steps⟩ := occurs.derives
  have shrinks := (Derives.refl [.nonterminal nonterminal]).append vanishes.derives
  exact ⟨before, steps.trans ((Derives.refl before).append shrinks)⟩

end Occurs

theorem ne_eoi_of_begins (wellFormed : grammar.WellFormed) {string : List Symbol}
    (begins : grammar.Begins terminal string) (usable : ∀ symbol ∈ string, grammar.Usable symbol) :
    terminal ≠ Terminal.eoi := by
  induction begins with
  | terminal terminal rest => exact (usable _ List.mem_cons_self).1
  | rule rest known inside ih =>
      exact ih fun symbol member => wellFormed.usable_of_mem_right known member
  | skip empty others ih => exact ih fun symbol member => usable symbol (List.mem_cons_of_mem _ member)

/-! ### From the rules to derivations -/

theorem Follows.derives (wellFormed : grammar.WellFormed)
    (follows : grammar.Follows terminal nonterminal) (inside : terminal ≠ Terminal.eoi) :
    ∃ other, grammar.Declared (.nonterminal other) ∧ ∃ front back,
      grammar.Derives [.nonterminal other]
        (front ++ .nonterminal nonterminal :: .terminal terminal :: back) := by
  induction follows with
  | start eoi => exact absurd eoi inside
  | @begins nonterminal left after occurs begins =>
      obtain ⟨before, steps⟩ := occurs.derives
      obtain ⟨back, more⟩ := begins.derives
      refine ⟨left, occurs.left_declared wellFormed, before, back, steps.trans ?_⟩
      exact (Derives.refl before).append ((Derives.refl [.nonterminal nonterminal]).append more)
  | @inherits nonterminal left after occurs vanishes _ ih =>
      obtain ⟨other, declared, front, back, steps⟩ := ih
      obtain ⟨before, more⟩ := occurs.derives_last vanishes
      have inside := more.surround front (.terminal terminal :: back)
      refine ⟨other, declared, front ++ before, back, steps.trans ?_⟩
      simpa only [List.append_assoc, List.cons_append, List.nil_append] using inside

theorem Follows.derives_of_eoi (wellFormed : grammar.WellFormed)
    (follows : grammar.Follows Terminal.eoi nonterminal) :
    ∃ front, grammar.Derives [.nonterminal Nonterminal.augmented]
      (front ++ [.nonterminal nonterminal]) := by
  induction follows with
  | start => exact ⟨[], .refl _⟩
  | begins occurs begins =>
      refine absurd rfl (ne_eoi_of_begins wellFormed begins ?_)
      intro symbol member
      exact occurs.usable wellFormed (List.mem_cons_of_mem _ member)
  | @inherits nonterminal left after occurs vanishes _ ih =>
      obtain ⟨front, steps⟩ := ih
      obtain ⟨before, more⟩ := occurs.derives_last vanishes
      refine ⟨front ++ before, steps.trans ?_⟩
      rw [List.append_assoc]
      exact (Derives.refl front).append more

/-! ### From derivations to the rules -/

/-- Whether nothing in a string stands right after a nonterminal but what follows it by the rules. -/
def Obeys (grammar : Grammar α) (string : List Symbol) : Prop :=
  ∀ front nonterminal back terminal, string = front ++ .nonterminal nonterminal :: back →
    grammar.Begins terminal back → grammar.Follows terminal nonterminal

private theorem eq_append_cons {front back left right : List Symbol} {symbol : Symbol}
    (same : front ++ back = left ++ symbol :: right) :
    (∃ rest, front = left ++ symbol :: rest ∧ right = rest ++ back) ∨
      ∃ rest, left = front ++ rest ∧ back = rest ++ symbol :: right := by
  rcases List.append_eq_append_iff.mp same with ⟨rest, behind, found⟩ | ⟨rest, behind, found⟩
  · exact Or.inr ⟨rest, behind, found⟩
  · cases rest with
    | nil => exact Or.inr ⟨[], by simpa using behind.symm, found.symm⟩
    | cons head rest =>
        obtain ⟨rfl, rfl⟩ := List.cons.inj found
        exact Or.inl ⟨rest, behind, rfl⟩

theorem Rewrites.obeys {first last : List Symbol} (step : grammar.Rewrites first last)
    (obeys : grammar.Obeys first) : grammar.Obeys last := by
  cases step with
  | @replace before after number rule known =>
      intro front nonterminal back terminal same begins
      rcases eq_append_cons same with ⟨rest, inFront, rfl⟩ | ⟨front, rfl, inside⟩
      · -- in front of what is replaced: what begins the new string began the old one
        refine obeys front nonterminal (rest ++ .nonterminal rule.left :: after) terminal ?_ ?_
        · rw [inFront, List.append_assoc, List.cons_append]
        · exact (Rewrites.replace rest after known).begins begins
      · rcases eq_append_cons inside with ⟨rest, inRight, rfl⟩ | ⟨front, rfl, inBack⟩
        · -- inside the right-hand side: what follows is in there, or it followed the left side before
          have occurs : grammar.Occurs nonterminal rule.left rest :=
            ⟨number, rule, front, known, rfl, inRight⟩
          rcases Begins.append_iff.mp begins with inRest | ⟨vanishes, inAfter⟩
          · exact .begins occurs inRest
          · exact .inherits occurs vanishes (obeys before rule.left after terminal rfl inAfter)
        · -- behind it: the strings are the same there
          refine obeys (before ++ .nonterminal rule.left :: front) nonterminal back terminal ?_ begins
          rw [inBack, List.append_assoc, List.cons_append]

theorem Derives.obeys {first last : List Symbol} (steps : grammar.Derives first last)
    (obeys : grammar.Obeys first) : grammar.Obeys last := by
  induction steps with
  | refl => exact obeys
  | head step _ ih => exact ih (step.obeys obeys)

/-! ### Following and deriving -/

private theorem not_begins_nil : ¬grammar.Begins terminal [] := by
  intro impossible
  cases impossible

private theorem obeys_nonterminal (other : Nonterminal) : grammar.Obeys [.nonterminal other] := by
  intro front nonterminal back terminal same begins
  rcases List.append_eq_cons_iff.mp same.symm with ⟨rfl, alone⟩ | ⟨rest, rfl, impossible⟩
  · cases alone
    exact absurd begins not_begins_nil
  · simp at impossible

private theorem obeys_augmented :
    grammar.Obeys [.nonterminal Nonterminal.augmented, .terminal Terminal.eoi] := by
  intro front nonterminal back terminal same begins
  rcases List.append_eq_cons_iff.mp same.symm with ⟨rfl, alone⟩ | ⟨rest, rfl, impossible⟩
  · cases alone
    exact .start begins.eq_of_terminal
  · have member : Symbol.nonterminal nonterminal ∈ [Symbol.terminal Terminal.eoi] := by
      rw [impossible]
      exact List.mem_append_right rest List.mem_cons_self
    simp at member

theorem follows_iff_derives (wellFormed : grammar.WellFormed) (inside : terminal ≠ Terminal.eoi) :
    grammar.Follows terminal nonterminal ↔
      ∃ other, grammar.Declared (.nonterminal other) ∧ ∃ front back,
        grammar.Derives [.nonterminal other]
          (front ++ .nonterminal nonterminal :: .terminal terminal :: back) := by
  constructor
  · intro follows
    exact follows.derives wellFormed inside
  · rintro ⟨other, _, front, back, steps⟩
    exact steps.obeys (obeys_nonterminal other) front nonterminal _ terminal rfl
      (.terminal terminal back)

theorem follows_eoi_iff_derives (wellFormed : grammar.WellFormed) :
    grammar.Follows Terminal.eoi nonterminal ↔
      ∃ front, grammar.Derives [.nonterminal Nonterminal.augmented]
        (front ++ [.nonterminal nonterminal]) := by
  constructor
  · intro follows
    exact follows.derives_of_eoi wellFormed
  · rintro ⟨front, steps⟩
    have ended := steps.append (.refl [.terminal Terminal.eoi])
    rw [List.append_assoc] at ended
    exact ended.obeys obeys_augmented front nonterminal _ Terminal.eoi rfl (.terminal _ [])

end Grammar

end CoolLang
