import CoolLang.Proofs.Analysis.Verification
import CoolLang.Proofs.Program.Parts
import CoolLang.Proofs.Typing.Absorption

/-!
Errors do not cascade. Of a program that parses, whatever is wrong with it, no expression gets a type that depends on
the class around it, and checking and verifying report of types only what is wrong with classes, before inference and
after it (`Analysis.errors_absorbed`).
-/

namespace CoolLang

namespace Analysis

open Inference

/-- Whether typing blames classes alone. An expression with the error type, or with a type that is still to be
inferred, is nothing that it blames. -/
structure Absorbs (result : Reported Analysis) : Prop where
  notSelf : ∀ expr ∈ result.1.program.exprs, expr.type? ≠ some .selfType
  typed : Expr.AllAbsolute result.1.hierarchy.types.size (result.1.program.typedExprs result.1.types)
  /-- So that the names in a report stand for the classes that it is about. -/
  named : ∀ type, result.1.hierarchy.IsClass type →
    result.1.hierarchy.find? (result.1.hierarchy.name type) = some type
  warranted : ∀ diagnostic ∈ result.2,
    diagnostic.Warranted result.1.hierarchy (result.1.program.typedExprs result.1.types)

variable {program : Program} {left : Program × InferenceState}

/-- What inference keeps of a program that has been checked, however far it gets. -/
structure Kept (program : Program) (left : Program × InferenceState) : Prop where
  standing : Standing (checked program).hierarchy (checked program).types left
  classes : untypedClasses left.1.classes (checked program).types =
    untypedClasses program.classes (checked program).types
  frames : (checked program).started.2.Frames left.2

theorem kept_of_passes (places : ∀ decl ∈ program.classes, (decl.features.map Feature.position).Nodup)
    (passes : Relation.ReflTransGen (Passes (checked program).types) (checked program).started left) :
    Kept program left := by
  obtain ⟨_, standing, _⟩ := ascends_of_passes passes (started_enrolled program) (started_standing program)
  obtain ⟨_, classes, frames⟩ := frames_of_passes places passes
  exact ⟨standing, classes, frames⟩

/-- What a survey of a parsed program comes to, in the hierarchy that inference leaves. -/
theorem Kept.survey_absorbs (kept : Kept program left) (fresh : ∀ expr ∈ program.exprs, expr.type? = none)
    {tree : Option ScopeTree} (isLeft : ∀ known ∈ tree, known = left.2.tree) {result : Reported Analysis}
    (types : result.1.types = (checked program).types) (hierarchy : result.1.hierarchy = left.2.hierarchy)
    (value : result.1.program = (program.survey (checked program).types left.2.hierarchy tree).value)
    (found : result.2 = (program.survey (checked program).types left.2.hierarchy tree).diagnostics left.2.hierarchy) :
    Absorbs result := by
  have prepared := checked_prepared program
  have alike := kept.standing.sound.alike
  have areClasses : ∀ type, some type ∈ (checked program).types → left.2.hierarchy.IsClass type :=
    fun type member => alike.isClass.mpr (prepared.areClasses type member)
  obtain ⟨typed, warranted⟩ := @Program.warrants_survey program (checked program).types left.2.hierarchy
    (checked program).hierarchy tree (alike.symm.rooted prepared.rooted) kept.standing.sound.valid areClasses
    (fun known isTree id => by
      obtain rfl := isLeft known isTree
      have placed := kept.standing.sound.slot prepared.rooted.positive id
      exact ⟨alike.size ▸ placed.known, placed.concrete⟩)
    (fun known isTree => by
      obtain rfl := isLeft known isTree
      rw [kept.frames.tree.children]
      exact Nat.le_of_eq prepared.numbered)
    (fun known isTree => by
      obtain rfl := isLeft known isTree
      exact shows_of_frames kept.frames)
  obtain ⟨⟨_, _, _, _⟩, _⟩ := result
  obtain rfl := types
  obtain rfl := hierarchy
  obtain rfl := value
  obtain rfl := found
  refine ⟨fun expr member => ?_, typed, fun type isClass => ?_, warranted⟩
  · rcases Site.mem_exprs_surveyClasses _ _ _ _ _ _ member with isTyped | isUntyped
    · obtain ⟨type, noted, absolute⟩ := typed expr isTyped
      exact noted ▸ fun same => absolute.notSelf (Option.some.inj same)
    · rw [fresh expr isUntyped]
      exact nofun
  · have known := (alike.isClass.mp isClass).known
    rw [alike.find?, alike.name]
    exact find?_name known (TypeId.ne_error_of_isConcrete isClass.concrete)

theorem Kept.check_absorbs (kept : Kept program left) (fresh : ∀ expr ∈ program.exprs, expr.type? = none) :
    Absorbs (reached program left).check := by
  obtain ⟨value, found, _⟩ := left.1.check_surveyed (checked program).types left.2.hierarchy
  obtain ⟨sameValue, sameFound⟩ := Program.survey_of_untyped left.2.hierarchy none kept.classes
  exact kept.survey_absorbs fresh (fun known isTree => absurd isTree (Option.not_mem_none known)) rfl rfl
    (value.trans sameValue) (found.trans sameFound)

theorem Kept.verify_absorbs (kept : Kept program left) (fresh : ∀ expr ∈ program.exprs, expr.type? = none) :
    Absorbs (reached program left).verify.1 := by
  have grounded := (checked_surveyed program).2.2.1.of_nodes kept.frames.tree.nodes kept.frames.tree.size
  obtain ⟨value, found⟩ := left.1.verify_surveyed (checked program).types left.2.hierarchy grounded
    kept.standing.outline
  obtain ⟨sameValue, sameFound⟩ := Program.survey_of_untyped left.2.hierarchy (some left.2.tree) kept.classes
  exact kept.survey_absorbs fresh (fun _ same => (Option.some.inj same).symm) rfl rfl (value.trans sameValue)
    (found.trans sameFound)

/-- Errors do not cascade, neither when a program that parses is checked nor when it is checked again or verified, right
after that or after inference. -/
theorem errors_absorbed {source : String} (parsed : Program.parse (Scan.ofSource source).tokens = .ok program) :
    Absorbs (ofProgram program).collect.1.build.1.check ∧
      ∀ analysis, (analysis = checked program ∨ ∃ limit, analysis = ((checked program).infer limit).1) →
        Absorbs analysis.check ∧ Absorbs analysis.verify.1 := by
  have places : ∀ decl ∈ program.classes, (decl.features.map Feature.position).Nodup :=
    fun decl member => (Program.parse_shaped parsed member).2
  have fresh := Program.parse_untyped parsed
  have started : Kept program (checked program).started := kept_of_passes places .refl
  refine ⟨?_, ?_⟩
  · obtain ⟨value, found, _⟩ := checked_surveyed program
    exact started.survey_absorbs fresh (fun known isTree => absurd isTree (Option.not_mem_none known)) rfl rfl value found
  · rintro analysis (rfl | ⟨limit, rfl⟩)
    · exact ⟨started.check_absorbs fresh, started.verify_absorbs fresh⟩
    · have followed := kept_of_passes places (passes_whole limit (checked program))
      exact ⟨followed.check_absorbs fresh, followed.verify_absorbs fresh⟩

end Analysis

/-! ### A mistake -/

namespace Program

section

open TokenKind Analysis

private def spelled (column : Nat) (kind : TokenKind) (lexeme : String) : Token :=
  ⟨kind, lexeme, ⟨1, column⟩⟩

/-- A class with a dispatch on a variable that does not exist. -/
def mistaken : Program where
  classes := [⟨⟨"Main", ⟨1, 7⟩⟩, none, [
    .method ⟨⟨"main", ⟨1, 14⟩⟩, [], ⟨"Int", ⟨1, 23⟩⟩,
      .binary ⟨⟨1, 29⟩, none⟩ .add
        (.dispatch ⟨⟨1, 29⟩, none⟩ (some (.identifier ⟨⟨1, 29⟩, none⟩ "x")) none ⟨"f", ⟨1, 31⟩⟩ [])
        (.boolean ⟨⟨1, 37⟩, none⟩ true)⟩], ⟨1, 1⟩⟩]

def mistakenSource : String :=
  "class Main \x7b main() : Int \x7b x.f() + true \x7d; \x7d;"

theorem parse_mistaken : parse (Scan.ofSource mistakenSource).tokens = .ok mistaken := by
  have receiver : Reads Phrase.atom _ (.expr (.identifier ⟨⟨1, 29⟩, none⟩ "x")) :=
    .of_built (.token (spelled 29 objectName "x") .nil) rfl
  have call : Reads Phrase.call _ (.call ⟨none, ⟨"f", ⟨1, 31⟩⟩, []⟩) :=
    .of_built (.lexemes [spelled 30 dot ".", spelled 31 objectName "f", spelled 32 leftParen "(",
      spelled 33 rightParen ")"] .nil) rfl
  have left : Reads Phrase.callFactor _ (.expr (.dispatch ⟨⟨1, 29⟩, none⟩ (some (.identifier ⟨⟨1, 29⟩, none⟩ "x")) none
      ⟨"f", ⟨1, 31⟩⟩ [])) :=
    .of_built (.cons (receiver.widen 1) call.alone) rfl
  have right : Reads Phrase.atom _ (.expr (.boolean ⟨⟨1, 37⟩, none⟩ true)) :=
    .of_built (.token (spelled 37 trueWord "true") .nil) rfl
  have sum := Reads.of_operand .arith ⟨3, rfl⟩
    (.of_built (.cons (left.widen 4) (.token (spelled 35 plus "+") (right.widen 4).alone)) rfl)
  have main : Reads Phrase.feature _ (.feature (.method ⟨⟨"main", ⟨1, 14⟩⟩, [], ⟨"Int", ⟨1, 23⟩⟩, _⟩)) :=
    .of_built (.lexemes [spelled 14 objectName "main", spelled 18 leftParen "(", spelled 19 rightParen ")",
        spelled 21 colon ":", spelled 23 typeName "Int", spelled 27 leftBrace "\x7b"]
      (.cons sum (.lexemes [spelled 42 rightBrace "\x7d", spelled 43 semicolon ";"] .nil))) rfl
  have only : Reads Phrase.classDef _ (.classDecl ⟨⟨"Main", ⟨1, 7⟩⟩, none, _, ⟨1, 1⟩⟩) :=
    .of_built (.lexemes [spelled 1 classWord "class", spelled 7 typeName "Main", spelled 12 leftBrace "\x7b"]
      (.cons (.features (.cons main .nil))
        (.lexemes [spelled 45 rightBrace "\x7d", spelled 46 semicolon ";"] .nil))) rfl
  exact parse_of_classes (List.cons_ne_nil _ _) (.cons only .nil) (Token.endOfInput ⟨1, 47⟩) (by decide +kernel) rfl

/-- The sum is wrong because of its second operand; the dispatch causes no report of its own. -/
theorem errors_absorbed_mistaken : parse (Scan.ofSource mistakenSource).tokens = .ok mistaken ∧
    (ofProgram mistaken).collect.1.build.1.check.2 =
      [⟨⟨1, 29⟩, .unknownVariable "x" "main"⟩, ⟨⟨1, 29⟩, .invalidOperation "<error>" "Bool"⟩] ∧
    Absorbs (ofProgram mistaken).collect.1.build.1.check ∧ Absorbs (checked mistaken).verify.1 ∧
    Absorbs ((checked mistaken).infer 4).1.verify.1 := by
  obtain ⟨atFirst, later⟩ := errors_absorbed parse_mistaken
  exact ⟨parse_mistaken, by decide +kernel, atFirst, (later _ (Or.inl rfl)).2, (later _ (Or.inr ⟨4, rfl⟩)).2⟩

end

end Program

end CoolLang
