import Mathlib.Data.List.Sort
import CoolLang.Grammar.Definition
import CoolLang.Proofs.Grammar.Declared

/-!
What defining a grammar comes to. A declaration that is refused has changed nothing (`Definition.declare_atomic`), and
after any declarations a definition is a draft with its symbols and rules numbered in order
(`Definition.run_declareAll`). So whatever is declared, the grammar is well formed, and it holds just what was accepted,
under the numbers that were answered (`Definition.define_accepted`).
-/

namespace CoolLang

variable {α β : Type}

/-! ### Numbered lists -/

namespace Numbered

/-- Values under consecutive numbers. -/
def ofList (first : Nat) (values : List β) : Numbered β :=
  (values.zipIdx first).map Prod.swap

@[simp] theorem map_snd_ofList (first : Nat) (values : List β) : (ofList first values).map Prod.snd = values := by
  rw [ofList, List.map_map]
  exact List.zipIdx_map_fst first values

@[simp] theorem map_fst_ofList (first : Nat) (values : List β) :
    (ofList first values).map Prod.fst = List.range' first values.length := by
  rw [ofList, List.map_map]
  exact List.zipIdx_map_snd first values

theorem ofList_cons (first : Nat) (value : β) (values : List β) :
    ofList first (value :: values) = (first, value) :: ofList (first + 1) values := rfl

theorem ofList_concat (first : Nat) (values : List β) (value : β) :
    ofList first (values ++ [value]) = ofList first values ++ [(first + values.length, value)] := by
  rw [ofList, List.zipIdx_append, List.map_append]
  rfl

theorem mem_ofList {first : Nat} {values : List β} {entry : Nat × β} :
    entry ∈ ofList first values ↔ first ≤ entry.1 ∧ values[entry.1 - first]? = some entry.2 := by
  obtain ⟨number, value⟩ := entry
  rw [ofList, List.mem_map]
  constructor
  · rintro ⟨⟨_, _⟩, member, same⟩
    cases same
    exact List.mem_zipIdx_iff_le_and_getElem?_sub.mp member
  · intro isAt
    exact ⟨(value, number), List.mem_zipIdx_iff_le_and_getElem?_sub.mpr isAt, rfl⟩

theorem insert_ofList (first : Nat) (values : List β) (value : β) :
    (ofList first values).insert (first + values.length) value = ofList first (values ++ [value]) := by
  rw [ofList_concat]
  refine Keyed.insert_of_forall_ne value fun entry member same => ?_
  obtain ⟨_, isAt⟩ := mem_ofList.mp member
  obtain ⟨inRange, _⟩ := List.getElem?_eq_some_iff.mp isAt
  omega

theorem contains_ofList (values : List β) (number : Nat) :
    (ofList 0 values).contains number = decide (number < values.length) := by
  rw [Bool.eq_iff_iff, contains, List.any_eq_true, decide_eq_true_eq]
  constructor
  · rintro ⟨entry, member, same⟩
    obtain ⟨_, isAt⟩ := mem_ofList.mp member
    obtain ⟨inRange, _⟩ := List.getElem?_eq_some_iff.mp isAt
    rwa [← eq_of_beq same]
  · intro inRange
    exact ⟨(number, values[number]), mem_ofList.mpr ⟨Nat.zero_le _, List.getElem?_eq_getElem inRange⟩,
      beq_self_eq_true _⟩

theorem get?_ofList (values : List β) (number : Nat) : (ofList 0 values).get? number = values[number]? := by
  have generalized (first : Nat) : (ofList first values).get? (first + number) = values[number]? := by
    induction values generalizing first number with
    | nil => rfl
    | cons value values ih =>
        rw [ofList_cons, get?, List.find?_cons]
        cases number with
        | zero => simp
        | succ number =>
            have different : (first == first + (number + 1)) = false := by simp
            dsimp only
            rw [different]
            have rest := ih number (first + 1)
            rwa [Nat.add_assoc, Nat.add_comm 1] at rest
  have atZero := generalized 0
  rwa [Nat.zero_add] at atZero

theorem any_ofList (first : Nat) (values : List β) (test : β → Bool) :
    ((ofList first values).any fun entry => test entry.2) = values.any test := by
  conv_rhs => rw [← map_snd_ofList first values, List.any_map]
  rfl

/-- An entry that belongs before all others is put there. -/
theorem sort_concat (value : β) (values : List β) :
    (ofList 1 values ++ [(0, value)]).sort = ofList 0 (value :: values) := by
  have ascending : (ofList 0 (value :: values)).Pairwise fun first second => first.1 < second.1 := by
    apply List.pairwise_map.mp
    rw [map_fst_ofList]
    exact List.pairwise_lt_range'
  have sorted : (ofList 1 values ++ [(0, value)]).sort.Pairwise
      fun (first second : Nat × β) => decide (first.1 ≤ second.1) = true := by
    refine List.pairwise_mergeSort (fun _ _ _ => ?_) (fun _ _ => ?_) _
    · simp only [decide_eq_true_eq]
      exact Nat.le_trans
    · simp only [Bool.or_eq_true, decide_eq_true_eq]
      exact Nat.le_total _ _
  have same : (ofList 1 values ++ [(0, value)]).sort.Perm (ofList 0 (value :: values)) :=
    (List.mergeSort_perm _ _).trans List.perm_append_comm
  refine same.eq_of_pairwise (fun first second inFirst inSecond below above => ?_) sorted
    (ascending.imp fun less => decide_eq_true (Nat.le_of_lt less))
  have numbers : first.1 = second.1 := Nat.le_antisymm (of_decide_eq_true below) (of_decide_eq_true above)
  obtain ⟨_, isFirst⟩ := mem_ofList.mp (same.mem_iff.mp inFirst)
  obtain ⟨_, isSecond⟩ := mem_ofList.mp inSecond
  rw [numbers, isSecond] at isFirst
  exact Prod.ext numbers (Option.some.inj isFirst).symm

end Numbered

namespace Definition

/-! ### Steps -/

section Steps

variable {γ : Type} {first : Defining α β} {next : β → Defining α γ}

/-- The second of two steps is taken where the first has led, unless that refuses. -/
theorem run_bind (first : Defining α β) (next : β → Defining α γ) (definition : Definition α) :
    (first >>= next).run.run definition =
      match first.run.run definition with
      | (.ok value, after) => (next value).run.run after
      | (.error error, after) => (.error error, after) := by
  rw [ExceptT.run_bind, StateT.run_bind]
  generalize first.run.run definition = result
  obtain ⟨_ | _, _⟩ := result
  · rfl
  · rfl

theorem run_bind_ok {definition after : Definition α} {value : β}
    (isOk : first.run.run definition = (.ok value, after)) :
    (first >>= next).run.run definition = (next value).run.run after := by
  rw [run_bind, isOk]

/-- Whether a step never changes anything. -/
def Looks (step : Defining α β) : Prop :=
  ∀ definition, (step.run.run definition).2 = definition

/-- Whether a step never refuses. -/
def Succeeds (step : Defining α β) : Prop :=
  ∀ definition, ∃ value, (step.run.run definition).1 = .ok value

/-- Whether a step changes nothing where it refuses. -/
def Atomic (step : Defining α β) : Prop :=
  ∀ definition error, (step.run.run definition).1 = .error error → (step.run.run definition).2 = definition

theorem Looks.bind (looks : Looks first) (later : ∀ value, Looks (next value)) : Looks (first >>= next) := by
  intro definition
  have same := looks definition
  rw [run_bind]
  generalize first.run.run definition = result at same ⊢
  obtain ⟨_ | value, after⟩ := result
  · exact same
  · exact (later value after).trans same

theorem Looks.bindAtomic (looks : Looks first) (later : ∀ value, Atomic (next value)) : Atomic (first >>= next) := by
  intro definition error refused
  have same := looks definition
  rw [run_bind] at refused ⊢
  generalize first.run.run definition = result at same refused ⊢
  obtain ⟨_ | value, after⟩ := result
  · exact same
  · exact (later value after error refused).trans same

theorem Atomic.bindSucceeds (atomic : Atomic first) (later : ∀ value, Succeeds (next value)) :
    Atomic (first >>= next) := by
  intro definition error refused
  have unchanged := atomic definition
  rw [run_bind] at refused ⊢
  generalize first.run.run definition = result at unchanged refused ⊢
  obtain ⟨reason | value, after⟩ := result
  · exact unchanged reason rfl
  · obtain ⟨result, succeeds⟩ := later value after
    cases succeeds.symm.trans refused

theorem Succeeds.atomic {step : Defining α β} (succeeds : Succeeds step) : Atomic step := by
  intro definition error refused
  obtain ⟨value, isOk⟩ := succeeds definition
  cases isOk.symm.trans refused

theorem looks_get : Looks (get : Defining α (Definition α)) :=
  fun _ => rfl

theorem looks_throw (error : DeclarationError) : Looks (throw error : Defining α β) :=
  fun _ => rfl

theorem looks_pure (value : β) : Looks (pure value : Defining α β) :=
  fun _ => rfl

theorem looks_checkName (name : String) : Looks (checkName name : Defining α Unit) := by
  unfold checkName
  split
  · exact (looks_throw _).bind fun _ => looks_get.bind fun definition => by split <;> exact fun _ => rfl
  · exact looks_get.bind fun definition => by split <;> exact fun _ => rfl

theorem looks_checkNonterminal (nonterminal : Nonterminal) : Looks (checkNonterminal nonterminal : Defining α Unit) :=
  looks_get.bind fun definition => by split <;> exact fun _ => rfl

theorem looks_checkSymbol : (symbol : Symbol) → Looks (checkSymbol symbol : Defining α Unit)
  | .terminal _ => looks_get.bind fun definition => by split <;> exact fun _ => rfl
  | .nonterminal nonterminal => looks_checkNonterminal nonterminal

theorem looks_forM (symbols : List Symbol) : Looks (symbols.forM checkSymbol : Defining α Unit) := by
  induction symbols with
  | nil => exact looks_pure ()
  | cons symbol symbols ih => exact (looks_checkSymbol symbol).bind fun _ => ih

theorem looks_checkRule (left : Nonterminal) (right : List Symbol) :
    Looks (checkRule left right : Defining α Unit) :=
  looks_get.bind fun definition => by split <;> exact fun _ => rfl

/-- All that a declaration is refused for is found before it changes anything. -/
theorem declare_atomic : (declaration : Declaration α) → Atomic (declare declaration)
  | .terminal name =>
      Atomic.bindSucceeds ((looks_checkName name).bindAtomic fun _ => Succeeds.atomic fun _ => ⟨_, rfl⟩)
        fun _ _ => ⟨_, rfl⟩
  | .nonterminal name =>
      Atomic.bindSucceeds ((looks_checkName name).bindAtomic fun _ => Succeeds.atomic fun _ => ⟨_, rfl⟩)
        fun _ _ => ⟨_, rfl⟩
  | .rule left right _ =>
      Atomic.bindSucceeds ((looks_checkNonterminal left).bindAtomic fun _ => (looks_forM right).bindAtomic fun _ =>
        (looks_checkRule left right).bindAtomic fun _ => Succeeds.atomic fun _ => ⟨_, rfl⟩) fun _ _ => ⟨_, rfl⟩
  | .start symbol =>
      Atomic.bindSucceeds ((looks_checkNonterminal symbol).bindAtomic fun _ => Succeeds.atomic fun _ => ⟨_, rfl⟩)
        fun _ _ => ⟨_, rfl⟩

end Steps

/-! ### Definitions of drafts -/

/-- A draft with its symbols and rules numbered in order. -/
def ofDraft (draft : Draft α) : Definition α where
  terminals := .ofList 0 draft.terminals
  nonterminals := .ofList 0 draft.nonterminals
  rules := .ofList 1 draft.rules
  start := draft.start
  nextTerminal := draft.terminals.length
  nextNonterminal := draft.nonterminals.length
  nextRule := draft.rules.length + 1

/-- What a draft answers to a declaration, and the definition after it. -/
def answered (draft : Draft α) : Except DeclarationError (β × Draft α) → Except DeclarationError β × Definition α
  | .ok (value, next) => (.ok value, ofDraft next)
  | .error error => (.error error, ofDraft draft)

variable (draft : Draft α)

theorem run_checkName (name : String) :
    (checkName name).run.run (ofDraft draft) = (draft.checkName name, ofDraft draft) := by
  have isDeclared : (((ofDraft draft).terminals.any fun entry => entry.2 == name) ||
      (ofDraft draft).nonterminals.any fun entry => entry.2 == name) = draft.isDeclaredName name := by
    rw [Draft.isDeclaredName, List.contains_eq_any_beq, List.contains_eq_any_beq]
    have any (names : List String) : ((Numbered.ofList 0 names).any fun entry => entry.2 == name) =
        names.any fun known => name == known := by
      rw [Numbered.any_ofList 0 names fun known => known == name]
      simp only [BEq.comm]
    exact congrArg₂ or (any draft.terminals) (any draft.nonterminals)
  unfold checkName Draft.checkName
  split
  · rfl
  · rw [← isDeclared]
    change (if _ then _ else _ : Defining α Unit).run.run (ofDraft draft) = _
    split <;> rfl

theorem run_checkNonterminal (nonterminal : Nonterminal) :
    (checkNonterminal nonterminal).run.run (ofDraft draft) =
      (if draft.isUsableNonterminal nonterminal then .ok () else .error .unknownSymbol, ofDraft draft) := by
  have isKnown : (nonterminal == Nonterminal.augmented || !(ofDraft draft).nonterminals.contains nonterminal) =
      !draft.isUsableNonterminal nonterminal := by
    rw [Draft.isUsableNonterminal, ofDraft, Numbered.contains_ofList, Bool.not_and]
    simp only [bne, Bool.not_not]
  change (if _ then _ else _ : Defining α Unit).run.run (ofDraft draft) = _
  rw [isKnown]
  cases draft.isUsableNonterminal nonterminal <;> rfl

theorem run_checkSymbol : (symbol : Symbol) → (checkSymbol symbol).run.run (ofDraft draft) =
    (if draft.isUsable symbol then .ok () else .error .unknownSymbol, ofDraft draft)
  | .nonterminal nonterminal => run_checkNonterminal draft nonterminal
  | .terminal terminal => by
      have isKnown : (terminal == Terminal.eoi || !(ofDraft draft).terminals.contains terminal) =
          !draft.isUsable (.terminal terminal) := by
        rw [Draft.isUsable, ofDraft, Numbered.contains_ofList, Bool.not_and]
        simp only [bne, Bool.not_not]
      change (if _ then _ else _ : Defining α Unit).run.run (ofDraft draft) = _
      rw [isKnown]
      cases draft.isUsable (.terminal terminal) <;> rfl

theorem run_forM (symbols : List Symbol) : (symbols.forM checkSymbol).run.run (ofDraft draft) =
    (if symbols.all draft.isUsable then .ok () else .error .unknownSymbol, ofDraft draft) := by
  induction symbols with
  | nil => rfl
  | cons symbol symbols ih =>
      refine (run_bind _ _ _).trans ?_
      rw [run_checkSymbol, List.all_cons]
      cases draft.isUsable symbol with
      | true => exact ih
      | false => rfl

theorem run_checkRule (left : Nonterminal) (right : List Symbol) :
    (checkRule left right).run.run (ofDraft draft) =
      (if draft.hasRule left right then .error (.duplicateRule (draft.nonterminals[left]?.getD "")) else .ok (),
        ofDraft draft) := by
  have isKnown : ((ofDraft draft).rules.any fun entry => entry.2.left == left && entry.2.right == right) =
      draft.hasRule left right :=
    Numbered.any_ofList 1 draft.rules fun rule => rule.left == left && rule.right == right
  change (if _ then throw (DeclarationError.duplicateRule (((ofDraft draft).nonterminals.get? left).getD "")) else _ :
    Defining α Unit).run.run (ofDraft draft) = _
  rw [isKnown, show (ofDraft draft).nonterminals.get? left = draft.nonterminals[left]? from Numbered.get?_ofList _ _]
  cases draft.hasRule left right <;> rfl

theorem run_addTerminal (name : String) :
    (addTerminal name).run.run (ofDraft draft) = answered draft (draft.addTerminal name) := by
  unfold addTerminal Draft.addTerminal
  rw [run_bind, run_checkName]
  cases draft.checkName name with
  | error error => rfl
  | ok passed =>
      have inserted := Numbered.insert_ofList 0 draft.terminals name
      rw [Nat.zero_add] at inserted
      have length : (draft.terminals ++ [name]).length = draft.terminals.length + 1 := List.length_append
      refine Prod.ext rfl ?_
      change Definition.mk _ _ _ _ _ _ _ = Definition.mk _ _ _ _ _ _ _
      simp only [ofDraft, inserted, length]

theorem run_addNonterminal (name : String) :
    (addNonterminal name).run.run (ofDraft draft) = answered draft (draft.addNonterminal name) := by
  unfold addNonterminal Draft.addNonterminal
  rw [run_bind, run_checkName]
  cases draft.checkName name with
  | error error => rfl
  | ok passed =>
      have inserted := Numbered.insert_ofList 0 draft.nonterminals name
      rw [Nat.zero_add] at inserted
      have length : (draft.nonterminals ++ [name]).length = draft.nonterminals.length + 1 := List.length_append
      refine Prod.ext rfl ?_
      change Definition.mk _ _ _ _ _ _ _ = Definition.mk _ _ _ _ _ _ _
      simp only [ofDraft, inserted, length]

theorem run_addRule (left : Nonterminal) (right : List Symbol) (action : α) :
    (addRule left right action).run.run (ofDraft draft) = answered draft (draft.addRule left right action) := by
  unfold addRule Draft.addRule
  cases usable : draft.isUsableNonterminal left with
  | false =>
      rw [run_bind, run_checkNonterminal, usable]
      rfl
  | true =>
      have passed : (checkNonterminal left).run.run (ofDraft draft) = (.ok (), ofDraft draft) := by
        rw [run_checkNonterminal, usable]
        rfl
      rw [run_bind_ok passed]
      cases areUsable : right.all draft.isUsable with
      | false =>
          rw [run_bind, run_forM, areUsable]
          rfl
      | true =>
          have passed : (right.forM checkSymbol).run.run (ofDraft draft) = (.ok (), ofDraft draft) := by
            rw [run_forM, areUsable]
            rfl
          rw [run_bind_ok passed, run_bind, run_checkRule]
          cases draft.hasRule left right with
          | true => rfl
          | false =>
              have inserted := Numbered.insert_ofList 1 draft.rules ⟨left, right, some action⟩
              rw [Nat.add_comm] at inserted
              have length (rule : Rule α) : (draft.rules ++ [rule]).length = draft.rules.length + 1 := List.length_append
              refine Prod.ext rfl ?_
              change Definition.mk _ _ _ _ _ _ _ = Definition.mk _ _ _ _ _ _ _
              simp only [ofDraft, inserted, length]

theorem run_setStart (symbol : Nonterminal) : (setStart symbol).run.run (ofDraft draft) =
    answered draft ((draft.setStart symbol).map fun next => ((), next)) := by
  unfold setStart Draft.setStart
  rw [run_bind, run_checkNonterminal]
  cases draft.isUsableNonterminal symbol <;> rfl

/-- A definition answers to a declaration what its draft answers. -/
theorem run_declare (declaration : Declaration α) :
    (declare declaration).run.run (ofDraft draft) = answered draft (draft.declare declaration) := by
  cases declaration with
  | terminal name =>
      refine (run_bind _ _ _).trans ?_
      rw [run_addTerminal, Draft.declare]
      cases draft.addTerminal name <;> rfl
  | nonterminal name =>
      refine (run_bind _ _ _).trans ?_
      rw [run_addNonterminal, Draft.declare]
      cases draft.addNonterminal name <;> rfl
  | rule left right action =>
      refine (run_bind _ _ _).trans ?_
      rw [run_addRule, Draft.declare]
      cases draft.addRule left right action <;> rfl
  | start symbol =>
      refine (run_bind _ _ _).trans ?_
      rw [run_setStart, Draft.declare]
      cases draft.setStart symbol <;> rfl

/-- After a declaration there is the draft that has skipped it if it is refused. -/
theorem run_declare_state (declaration : Declaration α) :
    ((declare declaration).run.run (ofDraft draft)).2 = ofDraft (draft.declareOrSkip declaration) := by
  rw [run_declare, Draft.declareOrSkip]
  cases draft.declare declaration <;> rfl

end Definition

/-! ### Answers -/

/-- Declarations with the answers to them. -/
abbrev DeclarationLog (α : Type) := List (Declaration α × Definition.Answer)

namespace DeclarationLog

/-- The terminals that were not refused, under the numbers they were given. -/
def terminals (log : DeclarationLog α) : Numbered String :=
  log.filterMap fun
    | (.terminal name, .ok (some number)) => some (number, name)
    | _ => none

/-- The nonterminals that were not refused, under the numbers they were given. -/
def nonterminals (log : DeclarationLog α) : Numbered String :=
  log.filterMap fun
    | (.nonterminal name, .ok (some number)) => some (number, name)
    | _ => none

/-- The rules that were not refused, under the numbers they were given. -/
def rules (log : DeclarationLog α) : Numbered (Rule α) :=
  log.filterMap fun
    | (.rule left right action, .ok (some number)) => some (number, ⟨left, right, some action⟩)
    | _ => none

/-- The start symbols that were not refused. -/
def starts (log : DeclarationLog α) : List Nonterminal :=
  log.filterMap fun
    | (.start symbol, .ok _) => some symbol
    | _ => none

/-- What a log says of how a draft has become another one. -/
structure Accounts (log : DeclarationLog α) (before after : Draft α) : Prop where
  terminals : Numbered.ofList 0 after.terminals = .ofList 0 before.terminals ++ log.terminals
  nonterminals : Numbered.ofList 0 after.nonterminals = .ofList 0 before.nonterminals ++ log.nonterminals
  rules : Numbered.ofList 1 after.rules = .ofList 1 before.rules ++ log.rules
  start : after.start = log.starts.getLast?.or before.start
  numbered : ∀ declaration, (declaration, .ok none) ∈ log → ∃ symbol, declaration = .start symbol

theorem Accounts.refl (draft : Draft α) : Accounts [] draft draft :=
  ⟨(List.append_nil _).symm, (List.append_nil _).symm, (List.append_nil _).symm, rfl, nofun⟩

theorem Accounts.trans {one two : DeclarationLog α} {before between after : Draft α}
    (first : Accounts one before between) (second : Accounts two between after) :
    Accounts (one ++ two) before after where
  terminals := by
    rw [second.terminals, first.terminals, List.append_assoc]
    exact congrArg _ List.filterMap_append.symm
  nonterminals := by
    rw [second.nonterminals, first.nonterminals, List.append_assoc]
    exact congrArg _ List.filterMap_append.symm
  rules := by
    rw [second.rules, first.rules, List.append_assoc]
    exact congrArg _ List.filterMap_append.symm
  start := by
    have starts : DeclarationLog.starts (one ++ two) = one.starts ++ two.starts := List.filterMap_append
    rw [second.start, first.start, starts, List.getLast?_append, Option.or_assoc]
  numbered declaration member :=
    (List.mem_append.mp member).elim (first.numbered declaration) (second.numbered declaration)

/-- A log of one declaration accounts for what the declaration does. -/
theorem accounts_single (draft : Draft α) (declaration : Declaration α) :
    Accounts [(declaration, ((Definition.declare declaration).run.run (Definition.ofDraft draft)).1)] draft
      (draft.declareOrSkip declaration) := by
  rw [Definition.run_declare, Draft.declareOrSkip]
  cases declared : draft.declare declaration with
  | error error =>
      refine ⟨?_, ?_, ?_, ?_, fun other member => ?_⟩
      · cases declaration <;> exact (List.append_nil _).symm
      · cases declaration <;> exact (List.append_nil _).symm
      · cases declaration <;> exact (List.append_nil _).symm
      · cases declaration <;> rfl
      · cases List.mem_singleton.mp member
  | ok result =>
      cases declaration with
      | terminal name =>
          rw [Draft.declare, Draft.addTerminal] at declared
          cases checked : draft.checkName name with
          | error error => rw [checked] at declared; cases declared
          | ok passed =>
              rw [checked] at declared
              cases declared
              refine ⟨?_, (List.append_nil _).symm, (List.append_nil _).symm, rfl, fun other member => ?_⟩
              · rw [Numbered.ofList_concat, Nat.zero_add]
                rfl
              · cases List.mem_singleton.mp member
      | nonterminal name =>
          rw [Draft.declare, Draft.addNonterminal] at declared
          cases checked : draft.checkName name with
          | error error => rw [checked] at declared; cases declared
          | ok passed =>
              rw [checked] at declared
              cases declared
              refine ⟨(List.append_nil _).symm, ?_, (List.append_nil _).symm, rfl, fun other member => ?_⟩
              · rw [Numbered.ofList_concat, Nat.zero_add]
                rfl
              · cases List.mem_singleton.mp member
      | rule left right action =>
          rw [Draft.declare, Draft.addRule] at declared
          split at declared
          · cases declared
          · split at declared
            · cases declared
            · cases declared
              refine ⟨(List.append_nil _).symm, (List.append_nil _).symm, ?_, rfl, fun other member => ?_⟩
              · rw [Numbered.ofList_concat, Nat.add_comm]
                rfl
              · cases List.mem_singleton.mp member
      | start symbol =>
          rw [Draft.declare, Draft.setStart] at declared
          split at declared
          · cases declared
            exact ⟨(List.append_nil _).symm, (List.append_nil _).symm, (List.append_nil _).symm, rfl,
              fun other member => ⟨symbol, (Prod.mk.inj (List.mem_singleton.mp member)).1⟩⟩
          · cases declared

end DeclarationLog

namespace Definition

/-- Running declarations ends with the draft that has skipped the refused ones, and the answers account for it. -/
theorem run_declareAll (draft : Draft α) (declarations : List (Declaration α)) :
    ((declareAll declarations).run (ofDraft draft)).2 = ofDraft (declarations.foldl Draft.declareOrSkip draft) ∧
      ((declareAll declarations).run (ofDraft draft)).1.length = declarations.length ∧
      DeclarationLog.Accounts (declarations.zip ((declareAll declarations).run (ofDraft draft)).1) draft
        (declarations.foldl Draft.declareOrSkip draft) := by
  induction declarations generalizing draft with
  | nil => exact ⟨rfl, rfl, .refl draft⟩
  | cons declaration declarations ih =>
      have result : (declareAll (declaration :: declarations)).run (ofDraft draft) =
          (((declare declaration).run.run (ofDraft draft)).1 ::
              ((declareAll declarations).run ((declare declaration).run.run (ofDraft draft)).2).1,
            ((declareAll declarations).run ((declare declaration).run.run (ofDraft draft)).2).2) := rfl
      rw [result, run_declare_state]
      obtain ⟨state, length, accounts⟩ := ih (draft.declareOrSkip declaration)
      exact ⟨state, congrArg (· + 1) length,
        (DeclarationLog.accounts_single draft declaration).trans accounts⟩

/-! ### Finishing -/

theorem run_takeStart (draft : Draft α) : takeStart.run.run (ofDraft draft) =
    ((draft.start.or (if draft.nonterminals.length > 1 then some 1 else none)).elim (.error .emptyNonterminals) .ok,
      { ofDraft draft with start := none }) := by
  obtain ⟨terminals, nonterminals, rules, start⟩ := draft
  cases start with
  | some start => rfl
  | none =>
      rcases nonterminals with _ | ⟨reserved, _ | ⟨name, names⟩⟩
      · rfl
      · rfl
      · have several : (reserved :: name :: names).length > 1 := Nat.succ_lt_succ (Nat.zero_lt_succ _)
        rw [Option.none_or, if_pos several]
        rfl

/-- A finished definition is numbered like the grammar, which is that of the draft. -/
theorem run_finish (draft : Draft α) : finish.run.run (ofDraft draft) =
    match draft.finish with
    | .ok grammar => (.ok grammar, { ofDraft draft with rules := .ofList 0 grammar.rules, start := none })
    | .error error => (.error error, { ofDraft draft with start := none }) := by
  unfold finish Draft.finish
  rw [run_bind, run_takeStart]
  dsimp only
  cases draft.start.or (if draft.nonterminals.length > 1 then some 1 else none) with
  | none => rfl
  | some start =>
      let augmented : Rule α := ⟨Nonterminal.augmented, [.nonterminal start], none⟩
      have inFront : Numbered.sort ((Numbered.ofList 1 draft.rules).insert RuleId.augmented augmented) =
          .ofList 0 (augmented :: draft.rules) := by
        rw [Keyed.insert_of_forall_ne augmented, RuleId.augmented, Numbered.sort_concat]
        rintro ⟨number, rule⟩ member rfl
        exact absurd (Numbered.mem_ofList.mp member).1 (Nat.not_succ_le_zero 0)
      have terminals := Numbered.map_snd_ofList 0 draft.terminals
      have nonterminals := Numbered.map_snd_ofList 0 draft.nonterminals
      have rules := Numbered.map_snd_ofList 0 (augmented :: draft.rules)
      change (Except.ok (Grammar.mk (List.map Prod.snd (Numbered.ofList 0 draft.terminals))
        (List.map Prod.snd (Numbered.ofList 0 draft.nonterminals))
        (List.map Prod.snd (Numbered.sort ((Numbered.ofList 1 draft.rules).insert RuleId.augmented augmented))) start),
        { ofDraft draft with
          rules := Numbered.sort ((Numbered.ofList 1 draft.rules).insert RuleId.augmented augmented), start := none }) = _
      rw [inFront, terminals, nonterminals, rules]

/-! ### What is defined -/

variable (declarations : List (Declaration α))

def answers : List Answer := (define declarations).1.1

def outcome : Except DeclarationError (Grammar α) := (define declarations).1.2

/-- The definition after the last step. -/
def finished : Definition α := (define declarations).2

def log : DeclarationLog α := declarations.zip (answers declarations)

end Definition

/-- A grammar and its numbering, as the answers to its declarations tell it. -/
structure DeclarationLog.Defines (log : DeclarationLog α) (grammar : Grammar α) (finished : Definition α) : Prop where
  wellFormed : grammar.WellFormed
  right_usable : ∀ number rule, grammar.rule? number = some rule → ∀ symbol ∈ rule.right, grammar.Usable symbol
  augmented_iff : ∀ number rule, grammar.rule? number = some rule →
    (rule.left = Nonterminal.augmented ↔ number = RuleId.augmented)
  start : some grammar.start = log.starts.getLast?.or (log.nonterminals.head?.map Prod.fst)
  terminals : finished.terminals = (Terminal.eoi, "$") :: log.terminals
  nonterminals : finished.nonterminals = (Nonterminal.augmented, "$start") :: log.nonterminals
  rules : finished.rules =
    (RuleId.augmented, ⟨Nonterminal.augmented, [.nonterminal grammar.start], none⟩) :: log.rules
  /-- The numbers are consecutive. -/
  numbered : finished.terminals = .ofList 0 grammar.terminals ∧
    finished.nonterminals = .ofList 0 grammar.nonterminals ∧ finished.rules = .ofList 0 grammar.rules

namespace Definition

theorem define_eq (declarations : List (Declaration α)) : ∃ draft : Draft α,
    draft = declarations.foldl Draft.declareOrSkip Draft.initial ∧
      (answers declarations).length = declarations.length ∧ (log declarations).Accounts Draft.initial draft ∧
      (outcome declarations, finished declarations) = finish.run.run (ofDraft draft) := by
  obtain ⟨state, length, accounts⟩ := run_declareAll Draft.initial declarations
  refine ⟨_, rfl, length, accounts, ?_⟩
  rw [← state]
  rfl

end Definition

namespace DeclarationLog

variable {log : DeclarationLog α} {draft : Draft α}

theorem mem_nonterminals {number : Nonterminal} {name : String} :
    (number, name) ∈ log.nonterminals ↔ (.nonterminal name, .ok (some number)) ∈ log := by
  rw [nonterminals, List.mem_filterMap]
  constructor
  · rintro ⟨⟨declaration, answer⟩, member, same⟩
    split at same
    · cases same
      rename_i isEntry
      exact isEntry ▸ member
    · cases same
  · intro member
    exact ⟨_, member, rfl⟩

/-- The first nonterminal that is declared is the one after the reserved one. -/
theorem Accounts.head?_nonterminals (accounts : log.Accounts .initial draft) :
    log.nonterminals.head?.map Prod.fst = if draft.nonterminals.length > 1 then some 1 else none := by
  have numbered := accounts.nonterminals
  cases same : draft.nonterminals with
  | nil =>
      rw [same] at numbered
      cases numbered
  | cons reserved names =>
      rw [same, Numbered.ofList_cons] at numbered
      obtain ⟨-, isRest⟩ := List.cons.inj numbered
      rw [show log.nonterminals = Numbered.ofList 1 names from isRest.symm]
      cases names with
      | nil => rfl
      | cons name names => exact (if_pos (Nat.succ_lt_succ (Nat.zero_lt_succ _))).symm

/-- All that a nonterminal which is declared can be answered with is a number. -/
theorem Accounts.nonterminals_eq_nil_iff (accounts : log.Accounts .initial draft) : log.nonterminals = [] ↔
    ∀ name answer, (.nonterminal name, answer) ∈ log → ∃ refusal, answer = .error refusal := by
  constructor
  · intro isEmpty name answer member
    rcases answer with refusal | _ | number
    · exact ⟨refusal, rfl⟩
    · obtain ⟨symbol, isStart⟩ := accounts.numbered _ member
      cases isStart
    · have declared := mem_nonterminals.mpr member
      rw [isEmpty] at declared
      cases declared
  · intro refused
    refine List.eq_nil_iff_forall_not_mem.mpr fun ⟨number, name⟩ member => ?_
    obtain ⟨refusal, isRefused⟩ := refused name _ (mem_nonterminals.mp member)
    cases isRefused

theorem Accounts.finish_error (accounts : log.Accounts .initial draft) {error : DeclarationError}
    (refused : draft.finish = .error error) : error = .emptyNonterminals ∧ log.nonterminals = [] := by
  unfold Draft.finish at refused
  dsimp only at refused
  split at refused
  · rename_i noStart
    cases refused
    have noFirst := (Option.or_eq_none_iff.mp noStart).2
    rw [← accounts.head?_nonterminals, Option.map_eq_none_iff] at noFirst
    exact ⟨rfl, List.head?_eq_none_iff.mp noFirst⟩
  · cases refused

theorem Accounts.finish_ok (accounts : log.Accounts .initial draft) {grammar : Grammar α}
    (finished : draft.finish = .ok grammar) :
    some grammar.start = log.starts.getLast?.or (log.nonterminals.head?.map Prod.fst) ∧
      grammar.terminals = draft.terminals ∧ grammar.nonterminals = draft.nonterminals ∧
      grammar.rules = ⟨Nonterminal.augmented, [.nonterminal grammar.start], none⟩ :: draft.rules := by
  unfold Draft.finish at finished
  dsimp only at finished
  split at finished
  · cases finished
  · rename_i start isStart
    cases finished
    refine ⟨?_, rfl, rfl, rfl⟩
    have chosen : draft.start = log.starts.getLast? := accounts.start.trans Option.or_none
    rw [accounts.head?_nonterminals, ← chosen, isStart]

end DeclarationLog

namespace Definition

/-- Step by step, declarations define the grammar that they build as a whole. -/
theorem outcome_eq (declarations : List (Declaration α)) :
    outcome declarations = Grammar.ofDeclarations declarations := by
  obtain ⟨draft, isDraft, -, -, ran⟩ := define_eq declarations
  rw [run_finish] at ran
  rw [Grammar.ofDeclarations, ← isDraft]
  cases isFinished : draft.finish with
  | ok grammar => rw [isFinished] at ran; exact (Prod.mk.inj ran).1
  | error error => rw [isFinished] at ran; exact (Prod.mk.inj ran).1

/-- Defining a grammar comes to one that is well formed and holds what has been accepted, under the numbers that have
been answered; a declaration that is refused changes nothing, and only without a nonterminal there is no grammar. -/
theorem define_accepted (declarations : List (Declaration α)) :
    (∀ (definition : Definition α) declaration error,
      ((declare declaration).run.run definition).1 = .error error →
        ((declare declaration).run.run definition).2 = definition) ∧
      (answers declarations).length = declarations.length ∧
      (∀ declaration, (declaration, .ok none) ∈ log declarations → ∃ symbol, declaration = .start symbol) ∧
      (∀ error, outcome declarations = .error error ↔ error = .emptyNonterminals ∧
        ∀ name answer, (.nonterminal name, answer) ∈ log declarations → ∃ refusal, answer = .error refusal) ∧
      ∀ grammar, outcome declarations = .ok grammar →
        (log declarations).Defines grammar (finished declarations) := by
  obtain ⟨draft, isDraft, length, accounts, ran⟩ := define_eq declarations
  refine ⟨fun definition declaration => declare_atomic declaration definition, length, accounts.numbered, ?_⟩
  rw [run_finish] at ran
  rw [← accounts.nonterminals_eq_nil_iff]
  cases isFinished : draft.finish with
  | ok grammar =>
      rw [isFinished] at ran
      obtain ⟨isOutcome, isDefinition⟩ := Prod.mk.inj ran
      have wellFormed : grammar.WellFormed := by
        rw [isDraft] at isFinished
        exact Grammar.wellFormed_of_declarations isFinished
      obtain ⟨start, terminals, nonterminals, rules⟩ := accounts.finish_ok isFinished
      rw [isOutcome, isDefinition]
      refine ⟨fun error => ⟨(fun impossible => by cases impossible), fun noStart => ?_⟩, ?_⟩
      · have one : draft.nonterminals.length = 1 := by
          have numbered := congrArg List.length accounts.nonterminals
          rw [noStart.2] at numbered
          simpa [Numbered.ofList, Draft.initial] using numbered
        obtain ⟨notReserved, known⟩ := wellFormed.start_usable
        rw [nonterminals, one] at known
        exact absurd (Nat.lt_one_iff.mp known) notReserved
      · rintro _ ⟨⟩
        have augmented (number : RuleId) (rule : Rule α) (known : grammar.rule? number = some rule) :
            rule.left = Nonterminal.augmented ↔ number = RuleId.augmented := by
          refine ⟨wellFormed.augmented_of_left known, ?_⟩
          rintro rfl
          cases wellFormed.rule?_augmented.symm.trans known
          rfl
        refine ⟨wellFormed, fun _ _ known _ => wellFormed.usable_of_mem_right known, augmented, start, ?_, ?_, ?_,
          ⟨congrArg (Numbered.ofList 0) terminals.symm, congrArg (Numbered.ofList 0) nonterminals.symm, rfl⟩⟩
        · exact accounts.terminals
        · exact accounts.nonterminals
        · rw [rules, Numbered.ofList_cons]
          exact congrArg _ accounts.rules
  | error error =>
      rw [isFinished] at ran
      obtain ⟨isOutcome, -⟩ := Prod.mk.inj ran
      obtain ⟨rfl, isEmpty⟩ := accounts.finish_error isFinished
      rw [isOutcome]
      refine ⟨fun error => ⟨fun same => ⟨(Except.error.inj same).symm, isEmpty⟩, fun same => same.1 ▸ rfl⟩, ?_⟩
      intro grammar impossible
      cases impossible

end Definition

end CoolLang
