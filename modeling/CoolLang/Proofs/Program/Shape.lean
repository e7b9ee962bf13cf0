import CoolLang.Program.Notes
import CoolLang.Proofs.Program.Reading
import CoolLang.Proofs.Token.Scan

/-!
The shape of parsed programs. Every block and every `case` of a program that is parsed has a part, and the
names of its features stand at the positions of tokens, in order. So no two features of a class have their
names at one position if the tokens come from a scan (`Program.parse_shaped`).
-/

namespace CoolLang

/-! ### Sequences with parts -/

namespace Expr

mutual

/-- Whether every block and every `case` inside an expression has a part. -/
def Complete : Expr → Prop
  | .assign _ _ value => Complete value
  | .dispatch _ receiver _ _ args => CompleteOption receiver ∧ CompleteAll args
  | .cond _ test yes no => Complete test ∧ Complete yes ∧ Complete no
  | .loop _ test body => Complete test ∧ Complete body
  | .block _ body => body ≠ [] ∧ CompleteAll body
  | .letIn _ bindings body => CompleteBindings bindings ∧ Complete body
  | .caseOf _ scrutinee branches => Complete scrutinee ∧ branches ≠ [] ∧ CompleteBranches branches
  | .isVoid _ operand => Complete operand
  | .not _ operand => Complete operand
  | .complement _ operand => Complete operand
  | .binary _ _ left right => Complete left ∧ Complete right
  | .new .. => True
  | .identifier .. => True
  | .integer .. => True
  | .string .. => True
  | .boolean .. => True

def CompleteOption : Option Expr → Prop
  | none => True
  | some expr => Complete expr

def CompleteAll : List Expr → Prop
  | [] => True
  | expr :: exprs => Complete expr ∧ CompleteAll exprs

def CompleteBindings : List (Binding Expr) → Prop
  | [] => True
  | ⟨_, _, init⟩ :: bindings => CompleteOption init ∧ CompleteBindings bindings

def CompleteBranches : List (Branch Expr) → Prop
  | [] => True
  | ⟨_, _, body⟩ :: branches => Complete body ∧ CompleteBranches branches

end

theorem untypedAll_eq_nil {exprs : List Expr} : untypedAll exprs = [] ↔ exprs = [] := by
  cases exprs <;> simp [untypedAll]

theorem untypedBranches_eq_nil {branches : List (Branch Expr)} :
    untypedBranches branches = [] ↔ branches = [] := by
  cases branches <;> simp [untypedBranches]

mutual

/-- Static types do not matter. -/
theorem complete_untyped : (expr : Expr) → expr.untyped.Complete = expr.Complete
  | .integer .. | .string .. | .boolean .. | .identifier .. | .new .. => by rw [untyped, Complete, Complete]
  | .assign _ _ value => by rw [untyped, Complete, Complete, complete_untyped value]
  | .dispatch _ receiver _ _ args => by
      rw [untyped, Complete, Complete, completeOption_untyped receiver, completeAll_untyped args]
  | .cond _ test yes no => by
      rw [untyped, Complete, Complete, complete_untyped test, complete_untyped yes, complete_untyped no]
  | .loop _ test body => by rw [untyped, Complete, Complete, complete_untyped test, complete_untyped body]
  | .block _ body => by
      rw [untyped, Complete, Complete, completeAll_untyped body, ne_eq, untypedAll_eq_nil]
  | .letIn _ bindings body => by
      rw [untyped, Complete, Complete, complete_untyped body, completeBindings_untyped bindings]
  | .caseOf _ scrutinee branches => by
      rw [untyped, Complete, Complete, complete_untyped scrutinee, completeBranches_untyped branches, ne_eq,
        untypedBranches_eq_nil]
  | .isVoid _ operand | .not _ operand | .complement _ operand => by
      rw [untyped, Complete, Complete, complete_untyped operand]
  | .binary _ _ left right => by
      rw [untyped, Complete, Complete, complete_untyped left, complete_untyped right]

theorem completeOption_untyped : (expr : Option Expr) →
    CompleteOption (untypedOption expr) = CompleteOption expr
  | none => rfl
  | some expr => by rw [untypedOption, CompleteOption, CompleteOption, complete_untyped expr]

theorem completeAll_untyped : (exprs : List Expr) → CompleteAll (untypedAll exprs) = CompleteAll exprs
  | [] => rfl
  | expr :: exprs => by
      rw [untypedAll, CompleteAll, CompleteAll, complete_untyped expr, completeAll_untyped exprs]

theorem completeBindings_untyped : (bindings : List (Binding Expr)) →
    CompleteBindings (untypedBindings bindings) = CompleteBindings bindings
  | [] => rfl
  | ⟨_, _, init⟩ :: bindings => by
      rw [untypedBindings, CompleteBindings, CompleteBindings, completeOption_untyped init,
        completeBindings_untyped bindings]

theorem completeBranches_untyped : (branches : List (Branch Expr)) →
    CompleteBranches (untypedBranches branches) = CompleteBranches branches
  | [] => rfl
  | ⟨_, _, body⟩ :: branches => by
      rw [untypedBranches, CompleteBranches, CompleteBranches, complete_untyped body,
        completeBranches_untyped branches]

end

end Expr

/-! ### Features -/

namespace Feature

/-- Where the name of a feature is written. -/
def position : Feature → Position
  | .attribute decl => decl.name.position
  | .method decl => decl.name.position

def Complete : Feature → Prop
  | .attribute decl => Expr.CompleteOption decl.init
  | .method decl => decl.body.Complete

end Feature

/-- What the features of a class are like that has been read from tokens at some positions. -/
structure ClassDecl.Shaped (positions : List Position) (decl : ClassDecl) : Prop where
  complete : ∀ feature ∈ decl.features, feature.Complete
  places : (decl.features.map Feature.position).Sublist positions

namespace Value

/-- What a value is like that has been read from tokens at some positions. -/
def Shaped (positions : List Position) : Value → Prop
  | .token part => positions = [part.position]
  | .program part => ∀ decl ∈ part.classes, decl.Shaped positions
  | .classes parts => ∀ decl ∈ parts, decl.Shaped positions
  | .classDecl part => part.Shaped positions
  | .features parts =>
      (∀ part ∈ parts, part.Complete) ∧ (parts.map Feature.position).Sublist positions
  | .feature part => part.Complete ∧ part.position ∈ positions
  | .params _ => True
  | .param _ => True
  | .expr part => part.Complete
  | .exprs parts => parts ≠ [] ∧ Expr.CompleteAll parts
  | .bindings parts => Expr.CompleteBindings parts
  | .binding part => Expr.CompleteOption part.init
  | .branches parts => parts ≠ [] ∧ Expr.CompleteBranches parts
  | .call part => Expr.CompleteAll part.args

/-- Says of all values that are shaped like those of a right-hand side that they have a property. For the
symbols of a rule this unfolds to a statement about what the values hold. -/
def ForShaped : List Symbol → (List Position → List Value → Prop) → Prop
  | [], property => property [] []
  | symbol :: symbols, property =>
      ∀ content positions, Shaped positions (ofContent (symbol.variant?.getD .token) content) →
        ForShaped symbols fun others values =>
          property (positions ++ others) (ofContent (symbol.variant?.getD .token) content :: values)

end Value

theorem ClassDecl.Shaped.mono {decl : ClassDecl} {positions others : List Position}
    (shaped : decl.Shaped positions) (within : positions.Sublist others) : decl.Shaped others :=
  ⟨shaped.complete, shaped.places.trans within⟩

namespace Program

/-- Whether the action of a rule makes shaped values of shaped parts. -/
def RuleShapes (rule : Rule BuildAction) : Prop :=
  ∃ action, rule.action = some action ∧ Value.ForShaped rule.right fun positions arguments =>
    ∃ value, action arguments = some value ∧ value.Shaped positions

section

variable {front middle back : List Position}

private theorem program_shaped {classes : List ClassDecl} (shaped : Value.Shaped front (.classes classes)) :
    Value.Shaped (front ++ []) (.program ⟨classes⟩) := by
  rwa [List.append_nil]

private theorem lastClass_shaped {decl : ClassDecl} (shaped : Value.Shaped front (.classDecl decl)) :
    Value.Shaped (front ++ []) (.classes [decl]) := by
  rw [List.append_nil]
  exact List.forall_mem_singleton.mpr shaped

private theorem classes_shaped {decl : ClassDecl} {classes : List ClassDecl}
    (first : Value.Shaped front (.classDecl decl)) (others : Value.Shaped back (.classes classes)) :
    Value.Shaped (front ++ (back ++ [])) (.classes (decl :: classes)) := by
  rw [List.append_nil]
  refine List.forall_mem_cons.mpr ⟨ClassDecl.Shaped.mono first (List.sublist_append_left ..), ?_⟩
  intro decl member
  exact (others decl member).mono (List.sublist_append_right ..)

private theorem classDecl_shaped {decl : ClassDecl}
    (shaped : Value.Shaped middle (.features decl.features)) (within : middle.Sublist front) :
    Value.Shaped front (.classDecl decl) :=
  ⟨shaped.1, shaped.2.trans within⟩

private theorem features_shaped {feature : Feature} {features : List Feature}
    (first : Value.Shaped front (.feature feature)) (others : Value.Shaped back (.features features)) :
    Value.Shaped (front ++ (back ++ [])) (.features (feature :: features)) := by
  rw [List.append_nil]
  exact ⟨List.forall_mem_cons.mpr ⟨first.1, others.1⟩,
    (List.singleton_sublist.mpr first.2).append others.2⟩

private theorem position_mem {token : Token} (shaped : Value.Shaped front (.token token)) :
    token.position ∈ front ++ back := by
  rw [shaped]
  exact List.mem_cons_self

end

theorem rules_shape : ∀ rule ∈ grammar.rules.tail, RuleShapes rule := by
  simp only [grammar, List.tail_cons, Phrase.classRules, Phrase.featureRules, Phrase.exprRules,
    Phrase.bindingRules, Phrase.operatorRules, Phrase.callRules, Phrase.atomRules,
    List.forall_mem_append, List.forall_mem_cons]
  and_intros
  all_goals first | refine ⟨_, rfl, ?_⟩ | exact List.forall_mem_nil _
  -- what is left of a right-hand side is what its values hold
  all_goals repeat intro
  all_goals refine ⟨_, rfl, ?_⟩
  all_goals first
    | exact program_shaped ‹_›
    | exact lastClass_shaped ‹_›
    | exact classes_shaped ‹_› ‹_›
    | exact features_shaped ‹_› ‹_›
    | refine classDecl_shaped ‹_› ?_
    | repeat' apply And.intro
  all_goals first
    | trivial
    | assumption
    | exact List.cons_ne_nil _ _
    | exact List.forall_mem_nil _
    | exact And.left ‹_›
    | exact And.right ‹_›
    | exact position_mem ‹_›
    | skip
  all_goals repeat first | exact List.sublist_append_left .. | apply List.sublist_append_of_sublist_right

mutual

/-- What is read has the shape of what it is read from. -/
theorem Reads.shaped {symbol : Symbol} {tokens : List Token} {value : Value} :
    Reads symbol tokens value → value.Fits symbol ∧ value.Shaped (tokens.map Token.position)
  | .token _ => ⟨rfl, rfl⟩
  | .phrase listed has inside built => by
      have declared := mem_tail_of_action listed has
      obtain ⟨fit, shaped⟩ := inside.shaped
      obtain ⟨_, has', fits⟩ := rules_fit _ declared
      cases has.symm.trans has'
      obtain ⟨_, built', fits⟩ := fits _ fit
      cases built.symm.trans built'
      obtain ⟨_, has', shapes⟩ := rules_shape _ declared
      cases has.symm.trans has'
      obtain ⟨_, built', isShaped⟩ := shaped shapes
      cases built.symm.trans built'
      exact ⟨fits, isShaped⟩

theorem ReadAll.shaped {symbols : List Symbol} {tokens : List Token} {values : List Value} :
    ReadAll symbols tokens values → List.Forall₂ Value.Fits symbols values ∧
      ∀ {property : List Position → List Value → Prop}, Value.ForShaped symbols property →
        property (tokens.map Token.position) values
  | .nil => ⟨.nil, id⟩
  | .cons first others => by
      obtain ⟨fits, isShaped⟩ := first.shaped
      obtain ⟨fit, shaped⟩ := others.shaped
      refine ⟨.cons fits fit, ?_⟩
      intro property all
      obtain ⟨content, rfl⟩ := fits.exists_content
      rw [List.map_append]
      exact shaped (all content _ isShaped)

end

/-- Every class that is parsed has the shape of a class, and no two of its features have their names at one
position. -/
theorem parse_shaped {source : String} {program : Program} {decl : ClassDecl}
    (parsed : parse (Scan.ofSource source).tokens = .ok program) (member : decl ∈ program.classes) :
    (∀ feature ∈ decl.features, feature.Complete) ∧ (decl.features.map Feature.position).Nodup := by
  obtain ⟨word, last, rest, reads, whole, _⟩ := parse_eq_ok_iff_reads.mp parsed
  have shaped : decl.Shaped (word.map Token.position) := reads.shaped.2 decl member
  have ascending := (Scan.accounts_ofSource source).ascending
  rw [whole, List.map_append] at ascending
  refine ⟨shaped.complete, ((List.pairwise_append.mp ascending).1.sublist shaped.places).imp ?_⟩
  rintro first _ before rfl
  rcases before with before | ⟨_, before⟩
  · exact before.false
  · exact before.false

end Program

end CoolLang
