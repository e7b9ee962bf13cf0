import CoolLang.Proofs.Analysis.Frame
import CoolLang.Proofs.Inference.Relocation
import Mathlib.Logic.Equiv.Fintype

/-!
The layout of a text. Two texts with the same tokens at other places are both programs or fail at the same token,
and all that is found out about one is found out about the other, at the other places
(`Analysis.compile_relayout`). The reason is that every pass commutes with a renaming of positions that keeps
them apart (`Analysis.complete_relocate`), and that there is such a renaming (`exists_relayout`).
-/

namespace CoolLang

variable {move : Position → Position}

/-! ### Passes -/

namespace Analysis

variable {program : Program}

theorem tells_relocateReport (move : Position → Position) (program : Program) :
    Tells move (relocateReport move program) := fun _ _ notMain =>
  if_neg fun both => notMain both.1

/-- The first class `Main` has a type, for nothing that is built in has that name. -/
theorem exists_typed_main (program : Program) :
    (∃ class' ∈ program.typed (Hierarchy.initial.collect program).2.1, class'.1.name.name = "Main") ↔
      ∃ decl ∈ program.classes, decl.name.name = "Main" := by
  constructor
  · rintro ⟨class', member, isMain⟩
    exact ⟨class'.1, Hierarchy.mem_classes_of_mem_typed member, isMain⟩
  · intro exists'
    obtain ⟨decl, member, isMain⟩ := exists_introduced
      (show "Main" ∉ Hierarchy.initialNames by decide)
      (show ∃ decl ∈ program.classes, decl.typeName = "Main" from exists')
    rw [← (Hierarchy.collect_introduces program).1] at member
    obtain ⟨class', isTyped, rfl⟩ := List.mem_map.mp member
    exact ⟨class', isTyped, isMain⟩

theorem collect_relocate (move : Position → Position) (program : Program) :
    (ofProgram (program.relocate move)).collect =
      (ofProgram program).collect.change (relocate move) (relocateReport move program) := by
  have same := @Hierarchy.collectAll_relocate _ .initial _ (tells_relocateReport move program) program.classes
  have initial : Hierarchy.initial.relocate move = .initial := by
    unfold Hierarchy.relocate Hierarchy.initial
    simp only [List.map_toArray, List.map_cons, List.map_nil]
    rfl
  rw [initial] at same
  unfold collect ofProgram
  dsimp only [Hierarchy.collect, Program.relocate]
  rw [same]
  rfl

theorem build_relocate (stays : move .builtin = .builtin) :
    ((ofProgram program).collect.1.relocate move).build =
      (ofProgram program).collect.1.build.change (relocate move) (relocateReport move program) := by
  have main (position : Position) : relocateReport move program ⟨position, .missingMain⟩ =
      ⟨if ∃ class' ∈ program.typed (Hierarchy.initial.collect program).2.1, class'.1.name.name = "Main" then
        move position else .first, .missingMain⟩ := by
    unfold relocateReport
    by_cases isMain : ∃ decl ∈ program.classes, decl.name.name = "Main"
    · rw [if_pos ((exists_typed_main program).mpr isMain), if_neg]
      · rfl
      · rintro ⟨_, none⟩
        obtain ⟨decl, member, isNamed⟩ := isMain
        exact none decl member isNamed
    · rw [if_neg (mt (exists_typed_main program).mp isMain), if_pos]
      exact ⟨rfl, fun decl member isNamed => isMain ⟨decl, member, isNamed⟩⟩
  have same := @Hierarchy.build_relocate _ (Hierarchy.initial.collect program).1 _
    (tells_relocateReport move program) stays _ _ main
  obtain ⟨left, reported⟩ := Prod.ext_iff.mp same
  exact Prod.ext (congrArg (Analysis.mk (program.relocate move) _ · .initial) left) reported

section

variable (apart : Function.Injective move) (analysis : Analysis)
include apart

theorem check_relocate (program : Program) : (analysis.relocate move).check =
    analysis.check.change (relocate move) (relocateReport move program) := by
  have same := analysis.program.check_relocate (tells_relocateReport move program) apart analysis.types
    analysis.hierarchy
  unfold check relocate
  dsimp only
  rw [same]
  rfl

theorem infer_relocate (limit : Nat) : (analysis.relocate move).infer limit =
    ((analysis.infer limit).1.relocate move, (analysis.infer limit).2) := by
  have same := Program.infer_relocate apart analysis.program analysis.types analysis.hierarchy analysis.tree limit
  unfold infer relocate
  dsimp only
  rw [same]
  rfl

theorem verify_relocate (program : Program) : (analysis.relocate move).verify =
    (analysis.verify.1.change (relocate move) (relocateReport move program), analysis.verify.2) := by
  have same := analysis.program.verify_relocate (tells_relocateReport move program) apart analysis.types
    analysis.hierarchy analysis.tree
  unfold verify relocate
  dsimp only
  rw [same]
  rfl

end

section

variable (apart : Function.Injective move) (stays : move .builtin = .builtin) (program : Program)
include stays

theorem build_collect_relocate : (ofProgram (program.relocate move)).collect.1.build =
    (ofProgram program).collect.1.build.change (relocate move) (relocateReport move program) :=
  (congrArg (build ·.1) (collect_relocate move program)).trans (build_relocate stays)

theorem declarationFaults_relocate : declarationFaults (program.relocate move) =
    (declarationFaults program).map (relocateReport move program) := by
  rw [declarationFaults, declarationFaults, build_collect_relocate stays, collect_relocate, List.map_append]
  rfl

include apart

theorem check_build_relocate : (ofProgram (program.relocate move)).collect.1.build.1.check =
    (ofProgram program).collect.1.build.1.check.change (relocate move) (relocateReport move program) := by
  rw [build_collect_relocate stays]
  exact check_relocate apart _ program

theorem checked_relocate : checked (program.relocate move) = (checked program).relocate move :=
  congrArg Prod.fst (check_build_relocate apart stays program)

/-- All passes over a program that has been moved come to what they come to over the program, moved. -/
theorem complete_relocate (options : Options) (scanned scanned' : List Diagnostic) :
    ∃ analysis found walks, complete options scanned program = .ok ⟨analysis, scanned ++ found, walks⟩ ∧
      complete options scanned' (program.relocate move) =
        .ok ⟨analysis.relocate move, scanned' ++ found.map (relocateReport move program), walks⟩ := by
  obtain ⟨_ | _, limit⟩ := options
  · refine ⟨checked program, declarationFaults program ++
      (program.check (checked program).types (checked program).hierarchy).2.2, 0, ?_, ?_⟩
    · rw [complete_checking, List.append_assoc]
    · have found : ((program.relocate move).check (checked (program.relocate move)).types
          (checked (program.relocate move)).hierarchy).2.2 =
            (program.check (checked program).types (checked program).hierarchy).2.2.map (relocateReport move program) :=
        (Prod.ext_iff.mp (check_build_relocate apart stays program)).2
      rw [complete_checking, found, declarationFaults_relocate stays, checked_relocate apart stays, List.map_append,
        List.append_assoc]
  · obtain ⟨⟨walks, inferred⟩, _⟩ := passes_run program limit
    refine ⟨((checked program).infer limit).1.verify.1.1, declarationFaults program ++
      ((checked program).infer limit).1.verify.1.2, walks, ?_, ?_⟩
    · rw [complete_of_infer inferred, List.append_assoc]
    · have known := infer_relocate apart (checked program) limit
      rw [← checked_relocate apart stays] at known
      have inferred' : ((checked (program.relocate move)).infer limit).2 = .ok walks := by rw [known, inferred]
      rw [complete_of_infer inferred', known, verify_relocate apart _ program, declarationFaults_relocate stays,
        List.map_append, List.append_assoc]
      rfl

end

end Analysis

/-! ### Texts -/

/-- Whether two tokens differ in their positions at most. -/
def Token.Alike (token other : Token) : Prop :=
  other.kind = token.kind ∧ other.lexeme = token.lexeme

instance (token other : Token) : Decidable (token.Alike other) :=
  inferInstanceAs (Decidable (_ ∧ _))

theorem Token.kinds_of_alike {tokens others : List Token} (alike : List.Forall₂ Token.Alike tokens others) :
    others.map Token.kind = tokens.map Token.kind := by
  rw [← List.forall₂_eq_eq_eq, List.forall₂_map_left_iff, List.forall₂_map_right_iff]
  exact alike.flip.imp fun _ _ same => same.1

theorem Position.Before.ne {one two : Position} (before : one.Before two) : one ≠ two := by
  rintro rfl
  rcases before with less | ⟨_, less⟩ <;> exact Nat.lt_irrefl _ less

/-- The tokens of a text stand at positions of their own, and none where the built-in declarations are. -/
theorem Scan.nodup_positions (source : String) :
    (Position.builtin :: (Scan.ofSource source).tokens.map Token.position).Nodup := by
  have accounts := Scan.accounts_ofSource source
  refine List.nodup_cons.mpr ⟨fun member => ?_, accounts.ascending.imp Position.Before.ne⟩
  obtain ⟨token, isToken, isBuiltin⟩ := List.mem_map.mp member
  obtain ⟨front, isBehind⟩ : ∃ front, token.position = .behind front := by
    rw [accounts.tokens] at isToken
    rcases List.mem_append.mp isToken with isToken | isLast
    · obtain ⟨⟨front, piece⟩, _, isToken⟩ := List.mem_filterMap.mp isToken
      dsimp only at isToken
      split at isToken
      · exact ⟨front, Option.some.inj isToken ▸ rfl⟩
      · cases isToken
    · exact ⟨source.toList, List.mem_singleton.mp isLast ▸ rfl⟩
  have line : 1 + front.count '\n' = 0 := congrArg Position.line (isBehind.symm.trans isBuiltin)
  omega

/-- Wherever a text has the tokens of another one, there is a renaming that takes them there. -/
theorem exists_relayout {source source' : String}
    (alike : List.Forall₂ Token.Alike (Scan.ofSource source).tokens (Scan.ofSource source').tokens) :
    ∃ move, Relayout move (Scan.ofSource source).tokens (Scan.ofSource source').tokens := by
  have apart := Scan.nodup_positions source
  have apart' := Scan.nodup_positions source'
  generalize (Scan.ofSource source).tokens = tokens at alike apart ⊢
  generalize (Scan.ofSource source').tokens = others at alike apart' ⊢
  have sameLength : (tokens.map Token.position).length = (others.map Token.position).length := by
    rw [List.length_map, List.length_map, alike.length_eq]
  -- a permutation of all positions that extends the pairing of those of the tokens
  obtain ⟨perm, takes⟩ := Equiv.Perm.exists_extending_pair (Position.builtin :: tokens.map Token.position).get
    (fun place => (Position.builtin :: others.map Token.position).get (place.cast (congrArg (· + 1) sameLength)))
    (List.nodup_iff_injective_get.mp apart)
    ((List.nodup_iff_injective_get.mp apart').comp (Fin.cast_injective _))
  refine ⟨perm, fun _ _ same => perm.injective same, takes ⟨0, Nat.succ_pos _⟩, ?_⟩
  refine List.ext_getElem (by rw [← sameLength, List.length_map perm]) fun place inOthers inTokens => ?_
  rw [List.getElem_map perm]
  exact (takes ⟨place + 1, Nat.succ_lt_succ (sameLength ▸ inOthers)⟩).symm

namespace Relayout

variable {tokens others : List Token} (relayout : Relayout move tokens others)
  (alike : List.Forall₂ Token.Alike tokens others)
include relayout alike

theorem forall₂_moved : List.Forall₂ (Token.Moved move) tokens others := by
  have moved := relayout.moved
  clear relayout
  induction alike with
  | nil => exact .nil
  | cons first _ ih =>
      obtain ⟨here, later⟩ := List.cons.inj moved
      exact .cons ⟨first.1, here, fun _ => first.2, fun _ => by rw [first.2], fun _ => by rw [first.2]⟩ (ih later)

theorem parse {program : Program} (ended : ∃ token ∈ others, token.kind = .endOfInput)
    (parsed : Program.parse tokens = .ok program) : Program.parse others = .ok (program.relocate move) := by
  have exists' : ∃ result, Program.parse others = .ok result := by
    by_contra none
    obtain ⟨_, _, _, _, _, _, failed⟩ := Program.exists_unexpected (Token.kinds_of_alike alike).symm ended
      fun result isResult => none ⟨result, isResult⟩
    rw [parsed] at failed
    cases failed
  obtain ⟨result, isResult⟩ := exists'
  obtain ⟨_, parsed', rfl⟩ := Program.parse_of_moved (relayout.forall₂_moved alike) isResult
  rw [parsed] at parsed'
  cases parsed'
  exact isResult

end Relayout

namespace Analysis

/-- Layout does not matter. Texts whose tokens differ in their positions only are both parsed, or not at the same
token; there is a renaming that takes the tokens of the one to those of the other; and what is made of the one
with any such renaming, is made of the other. -/
theorem compile_relayout {source source' : String}
    (alike : List.Forall₂ Token.Alike (Scan.ofSource source).tokens (Scan.ofSource source').tokens) :
    (∃ move, Relayout move (Scan.ofSource source).tokens (Scan.ofSource source').tokens) ∧
    ((∃ (place : Nat) (token token' : Token), (Scan.ofSource source).tokens[place]? = some token ∧
        (Scan.ofSource source').tokens[place]? = some token' ∧
        Program.parse (Scan.ofSource source).tokens = .error (.unexpectedToken token.lexeme token.position) ∧
        Program.parse (Scan.ofSource source').tokens = .error (.unexpectedToken token'.lexeme token'.position)) ∨
      ∃ program, Program.parse (Scan.ofSource source).tokens = .ok program ∧
        ∀ move, Relayout move (Scan.ofSource source).tokens (Scan.ofSource source').tokens →
          Program.parse (Scan.ofSource source').tokens = .ok (program.relocate move) ∧
          ∀ options, ∃ analysis found walks,
            compile options source = .ok ⟨analysis, (Scan.ofSource source).errors ++ found, walks⟩ ∧
            compile options source' = .ok ⟨analysis.relocate move,
              (Scan.ofSource source').errors ++ found.map (relocateReport move program), walks⟩) := by
  have ended (source : String) : ∃ token ∈ (Scan.ofSource source).tokens, token.kind = .endOfInput := by
    rw [(Scan.accounts_ofSource source).tokens]
    exact ⟨_, List.mem_append_right _ (List.mem_singleton_self _), rfl⟩
  refine ⟨exists_relayout alike, ?_⟩
  by_cases parses : ∃ program, Program.parse (Scan.ofSource source).tokens = .ok program
  · obtain ⟨program, parsed⟩ := parses
    refine Or.inr ⟨program, parsed, fun move relayout => ?_⟩
    have parsed' := relayout.parse alike (ended source') parsed
    refine ⟨parsed', fun options => ?_⟩
    rw [compile_of_parsed parsed, compile_of_parsed parsed']
    exact complete_relocate (fun _ _ same => relayout.apart _ _ same) relayout.builtin program options _ _
  · exact Or.inl (Program.exists_unexpected (Token.kinds_of_alike alike) (ended source)
      fun program parsed => parses ⟨program, parsed⟩)

/-- The text of a program over several lines, with comments and with a character that means nothing. -/
def spreadSource : String :=
  "class Main -- with\n \x7b (* one *) main()\n : # Object\x7b0\x7d; \x7d;"

theorem compile_relayout_spread :
    List.Forall₂ Token.Alike (Scan.ofSource Program.settledSource).tokens (Scan.ofSource spreadSource).tokens ∧
      ∃ move, Relayout move (Scan.ofSource Program.settledSource).tokens (Scan.ofSource spreadSource).tokens ∧
        Program.parse (Scan.ofSource spreadSource).tokens = .ok (Program.settled.relocate move) := by
  have alike : List.Forall₂ Token.Alike (Scan.ofSource Program.settledSource).tokens
      (Scan.ofSource spreadSource).tokens := by
    decide +kernel
  obtain ⟨⟨move, relayout⟩, outcome⟩ := compile_relayout alike
  refine ⟨alike, move, relayout, ?_⟩
  rcases outcome with ⟨_, _, _, _, _, failed, _⟩ | ⟨program, parsed, others⟩
  · rw [Program.parse_settled] at failed
    cases failed
  · rw [Program.parse_settled] at parsed
    cases parsed
    exact (others move relayout).1

end Analysis

end CoolLang
