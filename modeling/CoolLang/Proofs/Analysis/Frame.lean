import CoolLang.Proofs.Analysis.Convergence
import CoolLang.Proofs.Analysis.Pairing
import CoolLang.Proofs.Typing.Explicit
import CoolLang.Proofs.Typing.Independence

/-!
What inference leaves alone in a program. Where checking has just been done, everything is as it is
declared, and variables are declared as what they stand for. So nothing but the types of open declarations
changes from one walk to the next, nor when open declarations are settled (`Analysis.infer_frames`).
-/

namespace CoolLang

/-! ### Settling -/

theorem Attribute.Frames.settleOpen {before after : Attribute} (frames : before.Frames after) :
    before.Frames after.settleOpen := by
  unfold Attribute.settleOpen
  split
  · rename_i isAuto
    exact ⟨frames.name, frames.position, fun isWritten =>
      absurd (frames.declared isWritten ▸ isAuto) isWritten⟩
  · exact frames

theorem Method.Frames.settleOpen {before after : Method} (frames : before.Frames after) :
    before.Frames after.settleOpen :=
  ⟨frames.name, frames.position,
    List.forall₂_map_right_iff.mpr (frames.params.imp fun _ _ related => related.settleOpen),
    frames.result.settleOpen⟩

namespace Hierarchy

variable {before after hierarchy : Hierarchy}

theorem Frames.settleOpen (frames : before.Frames after) : before.Frames after.settleOpen := by
  refine List.foldlRecOn (motive := before.Frames) _ _ frames fun current related owner _ => ?_
  refine related.update (fun _ => rfl) ?_ ?_
  · exact List.forall₂_map_right_iff.mpr ((related.attributes owner).imp fun _ _ isFrame => isFrame.settleOpen)
  · exact List.forall₂_map_right_iff.mpr ((related.methods owner).imp fun _ _ isFrame => isFrame.settleOpen)

/-! ### Declarations -/

/-- Signatures are built as they are declared. -/
theorem Collected.build_declared {program : Program} {types : ClassTypes} (collected : hierarchy.Collected)
    (numbered : (program.typed types).map Prod.snd =
      (List.range' 8 (hierarchy.types.size - 8)).map TypeId.mk) :
    ∀ owner, ∀ method ∈ ((hierarchy.build program types).1.info owner).methods,
      ∀ info ∈ method.result :: method.params, info = .declared info.name info.type := by
  intro owner method member
  rcases collected.build_cases numbered owner with ⟨small, isInfo⟩ | ⟨class', _, _, methods⟩ | isInfo
  · rw [isInfo] at member
    have all : ∀ type ∈ initial.ids, ∀ method ∈ (initial.defineBuiltins.info type).methods,
        ∀ info ∈ method.result :: method.params, info = .declared info.name info.type := by
      decide
    exact all owner (mem_ids.mpr small) method member
  · rw [methods] at member
    obtain ⟨decl, _, rfl⟩ := List.mem_map.mp member
    refine List.forall_mem_cons.mpr ⟨rfl, fun info isParam => ?_⟩
    obtain ⟨⟨name, type⟩, _, rfl⟩ := List.mem_map.mp isParam
    rfl
  · rw [isInfo] at member
    cases member

theorem frames_refl (declared : ∀ owner, ∀ method ∈ (hierarchy.info owner).methods,
      ∀ info ∈ method.result :: method.params, info = .declared info.name info.type) :
    hierarchy.Frames hierarchy := by
  have isFrame {info : Variable} (isDeclared : info = .declared info.name info.type) : info.Frames info :=
    isDeclared ▸ Variable.declared_frames info.name info.type
  refine ⟨.refl hierarchy, fun owner => ?_, fun owner => ?_⟩
  · exact List.forall₂_same.mpr fun attr _ => ⟨rfl, rfl, fun _ => rfl⟩
  · refine List.forall₂_same.mpr fun method member => ?_
    obtain ⟨ofResult, ofParams⟩ := List.forall_mem_cons.mp (declared owner method member)
    exact ⟨rfl, rfl, List.forall₂_same.mpr fun param isParam => isFrame (ofParams param isParam), isFrame ofResult⟩

end Hierarchy

theorem ScopeTree.AllDeclared.frames {tree : ScopeTree} (declared : tree.AllDeclared) : tree.Frames tree := by
  refine ⟨rfl, rfl, fun id => ?_⟩
  unfold ScopeTree.variableAt
  cases isKnown : tree.vars[id]? with
  | none => exact ⟨rfl, rfl, nofun, nofun, fun _ => rfl⟩
  | some info =>
      obtain ⟨name, type, rfl⟩ := declared info (Array.mem_of_getElem? isKnown)
      exact Variable.declared_frames name type

/-! ### Where nothing is open -/

/-- Where no declaration is to be inferred, none changes. -/
theorem ScopeTree.Frames.eq_of_settled {before after : ScopeTree} (frames : before.Frames after)
    (settled : ∀ info ∈ before.vars, info.type ≠ .autoType) : after = before := by
  have vars : after.vars = before.vars := by
    refine Array.ext frames.size fun id inAfter inBefore => ?_
    have same := (frames.slots id).eq_of_ne_autoType
    rw [variableAt, variableAt, Array.getElem?_eq_getElem inBefore, Array.getElem?_eq_getElem inAfter] at same
    exact same (settled _ (Array.getElem_mem inBefore))
  obtain ⟨nodes, _⟩ := after
  exact congrArg₂ ScopeTree.mk frames.nodes vars

theorem Method.Frames.eq_of_settled {before after : Method} (frames : before.Frames after)
    (settled : (∀ param ∈ before.params, param.type ≠ .autoType) ∧ before.result.type ≠ .autoType) :
    after = before := by
  have params : List.Forall₂ Eq after.params before.params := by
    refine (((List.forall₂_and_left _ _).mpr ⟨settled.1, frames.params⟩).imp ?_).flip
    exact fun param _ ⟨isWritten, related⟩ => related.eq_of_ne_autoType isWritten
  rw [List.forall₂_eq_eq_eq] at params
  obtain ⟨name, _, result, position⟩ := after
  obtain rfl : name = before.name := frames.name
  obtain rfl : position = before.position := frames.position
  obtain rfl : result = before.result := frames.result.eq_of_ne_autoType settled.2
  obtain rfl : _ = before.params := params
  rfl

theorem Hierarchy.Frames.eq_of_settled {before after : Hierarchy} (frames : before.Frames after)
    (settled : ∀ owner, (∀ attr ∈ (before.info owner).attributes, attr.type ≠ .autoType) ∧
      ∀ method ∈ (before.info owner).methods,
        (∀ param ∈ method.params, param.type ≠ .autoType) ∧ method.result.type ≠ .autoType) :
    after = before := by
  have same (owner : TypeId) : after.info owner = before.info owner := by
    have bare := frames.alike.info_bare owner
    have attributes : List.Forall₂ Eq (after.info owner).attributes (before.info owner).attributes :=
      (((List.forall₂_and_left _ _).mpr ⟨(settled owner).1, frames.attributes owner⟩).imp
        fun _ _ ⟨isWritten, related⟩ => related.declared isWritten).flip
    have methods : List.Forall₂ Eq (after.info owner).methods (before.info owner).methods :=
      (((List.forall₂_and_left _ _).mpr ⟨(settled owner).2, frames.methods owner⟩).imp
        fun _ _ ⟨areWritten, related⟩ => related.eq_of_settled areWritten).flip
    rw [List.forall₂_eq_eq_eq] at attributes methods
    generalize after.info owner = changed at *
    generalize before.info owner = kept at *
    obtain ⟨name, parent, _, _, isSealed⟩ := changed
    obtain ⟨name', parent', _, _, isSealed'⟩ := kept
    obtain ⟨rfl, rfl, -, -, rfl⟩ := TypeInfo.mk.inj bare
    exact congrArg₂ (TypeInfo.mk name parent · · isSealed) attributes methods
  have types : after.types = before.types := by
    refine Array.ext frames.alike.size fun index inAfter inBefore => ?_
    have same := same ⟨index⟩
    rwa [info, info, Array.getElem?_eq_getElem inBefore, Array.getElem?_eq_getElem inAfter] at same
  exact congrArg Hierarchy.mk types

/-! ### Passes -/

namespace Inference

variable {start state : InferenceState} {types : ClassTypes} {program : Program}

theorem settleOpen_frames (frames : start.Frames state) : start.Frames (settleOpen state).2 := by
  refine advance_frames frames ⟨frames.hierarchy.settleOpen, frames.tree.nodes, ?_, fun id => ?_⟩
  · exact Array.size_map.trans frames.tree.size
  · dsimp only
    rw [variableAt_settleOpen]
    exact (frames.tree.slots id).settleOpen

/-- A walk whose visits merge and record like with like leaves alone what is declared. -/
theorem walk_frames (distinct : start.hierarchy.Distinct)
    (paired : ∀ visit ∈ visits program types start.tree, visit.Paired start.hierarchy start.tree)
    (outline : state.tree.skeleton = Nest.outline (program.nests types)) (noDrift : state.drift = none)
    (ended : (walk types program state).2.drift = none) (frames : start.Frames state) :
    start.Frames (walk types program state).2 := by
  let Keeps (_ : List Visit) (before after : InferenceState) : Prop := start.Frames before → start.Frames after
  have : Composes Keeps := ⟨fun _ => id, fun one two => two ∘ one⟩
  have same : visits program types state.tree = visits program types start.tree :=
    visits_congr frames.tree.nodes program
  have walked : Keeps (visits program types state.tree) _ (walk types program state).2 :=
    walk_visits (fun _ _ related => ⟨related.hierarchy, related.tree⟩) outline noDrift ended
      fun visit member _ awaits => visit_frames distinct (paired visit (same ▸ member)) awaits
  exact walked ⟨frames.hierarchy, frames.tree⟩

end Inference

namespace Analysis

open Inference

variable {program : Program}

theorem started_frames (program : Program) : (checked program).started.2.Frames (checked program).started.2 := by
  obtain ⟨collected, _⟩ := Hierarchy.collect_collected program
  obtain ⟨_, _, declared⟩ := Program.check_spec (Hierarchy.length_collect .initial program)
    ((Hierarchy.initial.collect program).1.build program (Hierarchy.initial.collect program).2.1).1
  exact ⟨Hierarchy.frames_refl (collected.build_declared (Hierarchy.collect_numbered program)), declared.frames⟩

theorem untyped_checked (program : Program) : (checked program).program.untyped = program.untyped :=
  (Program.check_spec (Hierarchy.length_collect .initial program)
    ((Hierarchy.initial.collect program).1.build program (Hierarchy.initial.collect program).2.1).1).1

/-- From one walk to the next, inference leaves the syntax alone and all that is declared. -/
theorem frames_of_passes (places : ∀ decl ∈ program.classes, (decl.features.map Feature.position).Nodup)
    {left : Program × InferenceState}
    (passes : Relation.ReflTransGen (Passes (checked program).types) (checked program).started left) :
    left.1.untyped = program.untyped ∧
      untypedClasses left.1.classes (checked program).types = untypedClasses program.classes (checked program).types ∧
      (checked program).started.2.Frames left.2 := by
  induction passes with
  | refl =>
      exact ⟨untyped_checked program, Typing.checkClasses_untyped _ program.classes _ _ _, started_frames program⟩
  | @tail left right before last ih =>
      obtain ⟨untyped, classes, frames⟩ := ih
      obtain ⟨enrolled, standing, _⟩ := ascends_of_passes before (started_enrolled program) (started_standing program)
      cases last with
      | walk =>
          obtain ⟨same, noDrift, _⟩ := walk_spec standing.outline standing.noDrift
          refine ⟨same.trans untyped, (inferClasses_untyped left.1.classes _ _).trans classes,
            walk_frames (checked_prepared program).features ?_ standing.outline standing.noDrift noDrift frames⟩
          intro visit member
          obtain ⟨other, isOther, same⟩ := exists_visit_of_untyped untyped member
          rw [← Visit.paired_untyped, ← same, Visit.paired_untyped]
          exact visits_paired places other isOther
      | settle => exact ⟨untyped, classes, settleOpen_frames frames⟩

/-- What inference makes of an analysis: it differs in static types, and in the types of declarations that
are open. -/
structure Preserves (before after : Analysis) : Prop where
  untyped : after.program.untyped = before.program.untyped
  types : after.types = before.types
  hierarchy : before.hierarchy.Frames after.hierarchy
  tree : before.tree.Frames after.tree

theorem infer_preserves (places : ∀ decl ∈ program.classes, (decl.features.map Feature.position).Nodup)
    (limit : Nat) : (checked program).Preserves ((checked program).infer limit).1 ∧
      untypedClasses ((checked program).infer limit).1.program.classes (checked program).types =
        untypedClasses program.classes (checked program).types := by
  obtain ⟨untyped, classes, frames⟩ := frames_of_passes places (passes_whole limit (checked program))
  exact ⟨⟨untyped.trans (untyped_checked program).symm, rfl, frames.hierarchy, frames.tree⟩, classes⟩

/-- Where a program says of all declarations what types they have, none of them is to be inferred. -/
theorem checked_settled (explicit : program.IsExplicit) :
    (∀ info ∈ (checked program).tree.vars, info.type ≠ .autoType) ∧
      ∀ owner, (∀ attr ∈ ((checked program).hierarchy.info owner).attributes, attr.type ≠ .autoType) ∧
        ∀ method ∈ ((checked program).hierarchy.info owner).methods,
          (∀ param ∈ method.params, param.type ≠ .autoType) ∧ method.result.type ≠ .autoType := by
  obtain ⟨collected, _⟩ := Hierarchy.collect_collected program
  have numbered := Hierarchy.collect_numbered program
  have settled (owner : TypeId) := collected.build_settled numbered (fun class' member feature isFeature =>
    (explicit class'.1 (Hierarchy.mem_classes_of_mem_typed member) feature isFeature).1) owner
  refine ⟨fun info member => ?_, settled⟩
  rcases Program.mem_vars_check program _ _ member with ⟨owner, attr, isAttribute, rfl⟩ | ⟨entry, isEntry, isInfo⟩
  · exact (settled owner).1 attr isAttribute
  · exact settled_declarationsClasses (collected.build_name_autoType numbered) (fun owner => (settled owner).1) _ _
      explicit (fun type isType => TypeId.ne_autoType_of_isConcrete ((checked_spec program).1 type isType)) _
      entry isEntry info isInfo

/-- Checking finds out what a survey of the program finds, and leaves each variable as it is declared. -/
theorem checked_surveyed (program : Program) :
    (checked program).program = (program.survey (checked program).types (checked program).hierarchy none).value ∧
      (program.check (checked program).types (checked program).hierarchy).2.2 =
        (program.survey (checked program).types (checked program).hierarchy none).diagnostics
          (checked program).hierarchy ∧
      (checked program).tree.Grounded ∧
      Site.Declared (checked program).tree
        (program.declarations (checked program).types (checked program).hierarchy (checked program).tree) :=
  program.check_surveyed _ _

/-- Where nothing is to be inferred, inference and the verification after it find what checking has found. -/
theorem infer_settled (places : ∀ decl ∈ program.classes, (decl.features.map Feature.position).Nodup)
    (explicit : program.IsExplicit) (limit : Nat) :
    ((checked program).infer limit).1.verify.1 =
      (checked program, (program.check (checked program).types (checked program).hierarchy).2.2) := by
  have prepared := checked_prepared program
  obtain ⟨preserves, classes⟩ := infer_preserves places limit
  obtain ⟨slots, features⟩ := checked_settled explicit
  generalize ((checked program).infer limit).1 = inferred at *
  obtain ⟨walked, types, hierarchy, tree⟩ := inferred
  obtain rfl : hierarchy = (checked program).hierarchy := preserves.hierarchy.eq_of_settled features
  obtain rfl : tree = (checked program).tree := preserves.tree.eq_of_settled slots
  obtain rfl : types = (checked program).types := preserves.types
  have untyped : walked.untyped = (checked program).program.untyped := preserves.untyped
  have classes : untypedClasses walked.classes (checked program).types =
    untypedClasses program.classes (checked program).types := classes
  obtain ⟨value, found, grounded, declared⟩ := checked_surveyed program
  have outline := prepared.outline
  rw [← Program.nests_of_untyped untyped] at outline
  obtain ⟨value', found'⟩ := walked.verify_surveyed (checked program).types (checked program).hierarchy grounded outline
  obtain ⟨sameValue, sameFound⟩ :=
    Program.survey_of_untyped (checked program).hierarchy (some (checked program).tree) classes
  have alone := Program.survey_alone prepared.numbered declared
  rw [sameValue, alone, ← value] at value'
  rw [sameFound, alone, ← found] at found'
  exact congrArg₂ (fun walked found => (({ checked program with program := walked } : Analysis), found)) value' found'

/-! ### Compiling -/

/-- What is reported before checking. -/
def declarationFaults (program : Program) : List Diagnostic :=
  (ofProgram program).collect.2 ++ (ofProgram program).collect.1.build.2

theorem inferAndVerify_eq {analysis : Analysis} {limit walks : Nat} (found : List Diagnostic)
    (inferred : (analysis.infer limit).2 = .ok walks) (verified : (analysis.infer limit).1.verify.2 = .ok ()) :
    analysis.inferAndVerify limit found =
      .ok ⟨(analysis.infer limit).1.verify.1.1, found ++ (analysis.infer limit).1.verify.1.2, walks⟩ := by
  unfold inferAndVerify
  dsimp only
  rw [inferred]
  dsimp only
  rw [verified]

theorem complete_of_infer {limit walks : Nat} {program : Program}
    (inferred : ((checked program).infer limit).2 = .ok walks) (scanned : List Diagnostic) :
    complete ⟨true, limit⟩ scanned program =
      .ok ⟨((checked program).infer limit).1.verify.1.1,
        scanned ++ declarationFaults program ++ ((checked program).infer limit).1.verify.1.2, walks⟩ := by
  rw [declarationFaults, ← List.append_assoc scanned]
  exact inferAndVerify_eq _ inferred (passes_run program limit).2

theorem complete_inferring (limit : Nat) (scanned : List Diagnostic) (program : Program) :
    ∃ walks, complete ⟨true, limit⟩ scanned program =
      .ok ⟨((checked program).infer limit).1.verify.1.1,
        scanned ++ declarationFaults program ++ ((checked program).infer limit).1.verify.1.2, walks⟩ := by
  obtain ⟨⟨walks, inferred⟩, _⟩ := passes_run program limit
  exact ⟨walks, complete_of_infer inferred scanned⟩

theorem complete_checking (limit : Nat) (scanned : List Diagnostic) (program : Program) :
    complete ⟨false, limit⟩ scanned program =
      .ok ⟨checked program, scanned ++ declarationFaults program ++
        (program.check (checked program).types (checked program).hierarchy).2.2, 0⟩ := by
  rw [declarationFaults, ← List.append_assoc]
  rfl

theorem compile_of_parsed {source : String} (parsed : Program.parse (Scan.ofSource source).tokens = .ok program)
    (options : Options) : compile options source = complete options (Scan.ofSource source).errors program := by
  rw [compile, parsed]
  rfl

/-- Inference leaves alone what is declared, and everything else but static types. Where a program says of all
declarations what types they have, compiling with inference and without leads to the same. -/
theorem inference_frames {source : String}
    (parsed : Program.parse (Scan.ofSource source).tokens = .ok program) :
    (∀ name, (checked program).hierarchy.find? name = some .autoType → name = "AUTO_TYPE") ∧
      (∀ limit, (checked program).Preserves ((checked program).infer limit).1) ∧
      (program.IsExplicit → ∀ limit limit', ∃ analysis found walks,
        compile ⟨true, limit⟩ source = .ok ⟨analysis, found, walks⟩ ∧
          compile ⟨false, limit'⟩ source = .ok ⟨analysis, found, 0⟩) := by
  have places : ∀ decl ∈ program.classes, (decl.features.map Feature.position).Nodup :=
    fun decl member => (Program.parse_shaped parsed member).2
  obtain ⟨collected, _⟩ := Hierarchy.collect_collected program
  have isNamed := collected.build_name_autoType (Hierarchy.collect_numbered program)
  refine ⟨fun name found => ?_, fun limit => (infer_preserves places limit).1, fun explicit limit limit' => ?_⟩
  · by_contra other
    exact Surroundings.find?_ne_autoType isNamed other found
  · obtain ⟨walks, inferring⟩ := complete_inferring limit (Scan.ofSource source).errors program
    rw [infer_settled places explicit limit] at inferring
    exact ⟨checked program, _, walks, (compile_of_parsed parsed _).trans inferring,
      (compile_of_parsed parsed _).trans (complete_checking limit' _ program)⟩

end Analysis

/-! ### Two programs -/

namespace Program

section

open TokenKind Analysis

private def ident (name : String) (column : Nat) : Ident :=
  ⟨name, ⟨1, column⟩⟩

private def noted (column : Nat) : Note :=
  ⟨⟨1, column⟩, none⟩

private def token (kind : TokenKind) (lexeme : String) (column : Nat) : Token :=
  ⟨kind, lexeme, ⟨1, column⟩⟩

/-- A class with a binding that has no type, and two methods of which one overrides the other. They leave to
inference each kind of position: the one that only the upper declares, the one that only the lower does, and one
that neither does. -/
def inferring : Program where
  classes := [
    ⟨ident "Main" 7, none, [
      .method ⟨ident "main" 14, [], ident "Object" 23,
        .letIn (noted 32) [⟨ident "n" 36, none, some (.integer (noted 41) 1)⟩]
          (.dispatch (noted 46) none none (ident "f" 46)
            [.identifier (noted 48) "n", .identifier (noted 51) "n", .identifier (noted 54) "n"])⟩,
      .method ⟨ident "f" 60,
        [⟨ident "x" 62, ident "Int" 66⟩, ⟨ident "y" 71, ident "Int" 75⟩, ⟨ident "z" 80, ident "AUTO_TYPE" 84⟩],
        ident "AUTO_TYPE" 97, .identifier (noted 109) "x"⟩],
      ⟨1, 1⟩⟩,
    ⟨ident "Sub" 123, some (ident "Main" 136), [
      .method ⟨ident "f" 143,
        [⟨ident "x" 145, ident "Int" 149⟩, ⟨ident "y" 154, ident "AUTO_TYPE" 158⟩, ⟨ident "z" 169, ident "AUTO_TYPE" 173⟩],
        ident "Bool" 186, .boolean (noted 193) true⟩],
      ⟨1, 117⟩⟩]

def inferringSource : String :=
  "class Main \x7b main() : Object \x7b let n <- 1 in f(n, n, n) \x7d; " ++
    "f(x : Int, y : Int, z : AUTO_TYPE) : AUTO_TYPE \x7b x \x7d; \x7d; " ++
    "class Sub inherits Main \x7b f(x : Int, y : AUTO_TYPE, z : AUTO_TYPE) : Bool \x7b true \x7d; \x7d;"

theorem parse_inferring : parse (Scan.ofSource inferringSource).tokens = .ok inferring := by
  have read (name : String) (column : Nat) :
      Reads Phrase.expr [token objectName name column] (.expr (.identifier (noted column) name)) :=
    .single _ rfl
  have param (name type : String) (column : Nat) : Reads Phrase.param
      [token objectName name column, token colon ":" (column + 2), token typeName type (column + 4)]
      (.param ⟨ident name column, ident type (column + 4)⟩) :=
    .of_built (.lexemes [_, _, _] .nil) rfl
  have params (second : String) (column : Nat) : Reads Phrase.paramList _
      (.params [⟨ident "x" column, ident "Int" (column + 4)⟩, ⟨ident "y" (column + 9), ident second (column + 13)⟩,
        ⟨ident "z" (column + 13 + second.length + 2), ident "AUTO_TYPE" (column + 13 + second.length + 6)⟩]) :=
    have last : Reads Phrase.paramList _ (.params [_]) :=
      .of_built (param "z" "AUTO_TYPE" (column + 13 + second.length + 2)).alone rfl
    have later : Reads Phrase.paramList _ (.params [_, _]) := .of_built (.cons (param "y" second (column + 9))
      (.token (token comma "," (column + 13 + second.length)) last.alone)) rfl
    .of_built (.cons (param "x" "Int" column) (.token (token comma "," (column + 7)) later.alone)) rfl
  have method {params : List Param} {body : Expr} {inside inner : List Token} (result : String)
      (column close opening after : Nat) (takes : Reads Phrase.paramList inside (.params params))
      (reads : Reads Phrase.expr inner (.expr body)) :
      Reads Phrase.feature _ (.feature (.method ⟨ident "f" column, params, ident result (close + 4), body⟩)) :=
    .of_built (.lexemes [token objectName "f" column, token leftParen "(" (column + 1)] (.cons takes
      (.lexemes [token rightParen ")" close, token colon ":" (close + 2), token typeName result (close + 4),
          token leftBrace "\x7b" opening]
        (.cons reads (.lexemes [token rightBrace "\x7d" after, token semicolon ";" (after + 1)] .nil))))) rfl
  have lastArg : Reads Phrase.argList _ (.exprs [_]) := .of_built (read "n" 54).alone rfl
  have laterArgs : Reads Phrase.argList _ (.exprs [_, _]) :=
    .of_built (.cons (read "n" 51) (.token (token comma "," 52) lastArg.alone)) rfl
  have args : Reads Phrase.argList _ (.exprs [_, _, _]) :=
    .of_built (.cons (read "n" 48) (.token (token comma "," 49) laterArgs.alone)) rfl
  have call : Reads Phrase.expr _ (.expr (.dispatch (noted 46) none none (ident "f" 46) [_, _, _])) :=
    .of_operand .memberCall ⟨9, rfl⟩ (.of_built (.lexemes [token objectName "f" 46, token leftParen "(" 47]
      (.cons args (.token (token rightParen ")" 55) .nil))) rfl)
  have one : Reads Phrase.expr _ (.expr (.integer (noted 41) 1)) := .single (token integer "1" 41) rfl
  have binding : Reads Phrase.letBinding _ (.binding ⟨ident "n" 36, none, some (.integer (noted 41) 1)⟩) :=
    .of_built (.lexemes [token objectName "n" 36, token assign "<-" 38] one.alone) rfl
  have bindings : Reads Phrase.letList _ (.bindings [_]) := .of_built binding.alone rfl
  have body : Reads Phrase.expr _ (.expr (.letIn (noted 32) _ _)) :=
    .of_built (.token (token letWord "let" 32) (.cons bindings (.token (token inWord "in" 43) call.alone))) rfl
  have main : Reads Phrase.feature _ (.feature (.method ⟨ident "main" 14, [], ident "Object" 23, _⟩)) :=
    .of_built (.lexemes [token objectName "main" 14, token leftParen "(" 18, token rightParen ")" 19,
        token colon ":" 21, token typeName "Object" 23, token leftBrace "\x7b" 30]
      (.cons body (.lexemes [token rightBrace "\x7d" 57, token semicolon ";" 58] .nil))) rfl
  have yes : Reads Phrase.expr _ (.expr (.boolean (noted 193) true)) := .single (token trueWord "true" 193) rfl
  have upper := method "AUTO_TYPE" 60 93 107 111 (params "Int" 62) (read "x" 109)
  have lower := method "Bool" 143 182 191 198 (params "AUTO_TYPE" 145) yes
  have first : Reads Phrase.classDef _ (.classDecl ⟨ident "Main" 7, none, _, ⟨1, 1⟩⟩) :=
    .of_built (.lexemes [token classWord "class" 1, token typeName "Main" 7, token leftBrace "\x7b" 12]
      (.cons (.features (.cons main (.cons upper .nil)))
        (.lexemes [token rightBrace "\x7d" 114, token semicolon ";" 115] .nil))) rfl
  have second : Reads Phrase.classDef _ (.classDecl ⟨ident "Sub" 123, some (ident "Main" 136), _, ⟨1, 117⟩⟩) :=
    .of_built (.lexemes [token classWord "class" 117, token typeName "Sub" 123, token inheritsWord "inherits" 127,
        token typeName "Main" 136, token leftBrace "\x7b" 141]
      (.cons (.features (.cons lower .nil)) (.lexemes [token rightBrace "\x7d" 201, token semicolon ";" 202] .nil))) rfl
  exact parse_of_classes (List.cons_ne_nil _ _) (.cons first (.cons second .nil)) (Token.endOfInput ⟨1, 203⟩)
    (by decide +kernel) rfl

/-- The program compiles, and nothing is reported. -/
theorem compile_inferring : ∃ walks, compile ⟨true, 32⟩ inferringSource =
    .ok ⟨((checked inferring).infer 32).1.verify.1.1, [], walks⟩ := by
  obtain ⟨walks, completed⟩ := complete_inferring 32 (Scan.ofSource inferringSource).errors inferring
  have clean : (Scan.ofSource inferringSource).errors ++ declarationFaults inferring ++
      ((checked inferring).infer 32).1.verify.1.2 = [] := by
    decide +kernel
  exact ⟨walks, by rw [compile_of_parsed parse_inferring, completed, clean]⟩

/-- A class that says of all declarations what types they have. -/
def settled : Program where
  classes := [⟨ident "Main" 7, none,
    [.method ⟨ident "main" 14, [], ident "Object" 23, .integer (noted 32) 0⟩], ⟨1, 1⟩⟩]

def settledSource : String :=
  "class Main \x7b main() : Object \x7b 0 \x7d; \x7d;"

theorem parse_settled : parse (Scan.ofSource settledSource).tokens = .ok settled := by
  have zero : Reads Phrase.expr _ (.expr (.integer (noted 32) 0)) := .single (token integer "0" 32) rfl
  have main : Reads Phrase.feature _ (.feature (.method ⟨ident "main" 14, [], ident "Object" 23, _⟩)) :=
    .of_built (.lexemes [token objectName "main" 14, token leftParen "(" 18, token rightParen ")" 19,
        token colon ":" 21, token typeName "Object" 23, token leftBrace "\x7b" 30]
      (.cons zero (.lexemes [token rightBrace "\x7d" 34, token semicolon ";" 35] .nil))) rfl
  have only : Reads Phrase.classDef _ (.classDecl ⟨ident "Main" 7, none, _, ⟨1, 1⟩⟩) :=
    .of_built (.lexemes [token classWord "class" 1, token typeName "Main" 7, token leftBrace "\x7b" 12]
      (.cons (.features (.cons main .nil)) (.lexemes [token rightBrace "\x7d" 37, token semicolon ";" 38] .nil))) rfl
  exact parse_of_classes (List.cons_ne_nil _ _) (.cons only .nil) (Token.endOfInput ⟨1, 39⟩)
    (by decide +kernel) rfl

theorem inference_frames_inferring :
    (∀ limit, (checked inferring).Preserves ((checked inferring).infer limit).1) ∧
      ∃ analysis found walks, compile ⟨true, 4⟩ settledSource = .ok ⟨analysis, found, walks⟩ ∧
        compile ⟨false, 1⟩ settledSource = .ok ⟨analysis, found, 0⟩ := by
  have explicit : settled.IsExplicit := by
    simp [IsExplicit, settled, Feature.writtenTypes, Feature.bindingTypes, Expr.bindingTypes, ident]
  exact ⟨(inference_frames parse_inferring).2.1, (inference_frames parse_settled).2.2 explicit 4 1⟩

end

end Program

end CoolLang
