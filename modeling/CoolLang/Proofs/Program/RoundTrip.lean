import CoolLang.Program.Rendering
import CoolLang.Proofs.Program.Layout
import CoolLang.Proofs.Text.Literal

/-!
Every program that can be written down is parsed back from its tokens. A tree can be written down if the
grammar has a form for each of its parts (`Program.Expressible`). Its tokens are read as the tree itself
with all positions at the start (`Program.parse_tokens`), and moving or respelling the tokens changes
positions only (`Program.parse_of_moved`).
-/

namespace CoolLang

/-- Where the tokens of a rendering stand. -/
abbrev Rendering.place (_ : Position) : Position :=
  Position.first

/-- An expression that can be written down. It has no static types; a sequence has an element; a number
is no greater than a literal can say; and a cast has a receiver. -/
inductive Expr.Expressible : Expr → Prop where
  | assign {position : Position} {target : Ident} {value : Expr} (inner : Expressible value) :
      Expressible (.assign ⟨position, none⟩ target value)
  | dispatch {position : Position} {receiver : Option Expr} {cast : Option Ident} {method : Ident}
      {args : List Expr} (uncast : receiver = none → cast = none)
      (inner : ∀ expr ∈ receiver, Expressible expr) (each : ∀ arg ∈ args, Expressible arg) :
      Expressible (.dispatch ⟨position, none⟩ receiver cast method args)
  | cond {position : Position} {test yes no : Expr} (inTest : Expressible test)
      (inYes : Expressible yes) (inNo : Expressible no) :
      Expressible (.cond ⟨position, none⟩ test yes no)
  | loop {position : Position} {test body : Expr} (inTest : Expressible test)
      (inBody : Expressible body) : Expressible (.loop ⟨position, none⟩ test body)
  | block {position : Position} {body : List Expr} (nonempty : body ≠ [])
      (each : ∀ expr ∈ body, Expressible expr) : Expressible (.block ⟨position, none⟩ body)
  | letIn {position : Position} {bindings : List (Binding Expr)} {body : Expr}
      (nonempty : bindings ≠ []) (each : ∀ binding ∈ bindings, ∀ init ∈ binding.init, Expressible init)
      (inner : Expressible body) : Expressible (.letIn ⟨position, none⟩ bindings body)
  | caseOf {position : Position} {scrutinee : Expr} {branches : List (Branch Expr)}
      (inner : Expressible scrutinee) (nonempty : branches ≠ [])
      (each : ∀ branch ∈ branches, Expressible branch.body) :
      Expressible (.caseOf ⟨position, none⟩ scrutinee branches)
  | new {position : Position} {type : Ident} : Expressible (.new ⟨position, none⟩ type)
  | isVoid {position : Position} {operand : Expr} (inner : Expressible operand) :
      Expressible (.isVoid ⟨position, none⟩ operand)
  | not {position : Position} {operand : Expr} (inner : Expressible operand) :
      Expressible (.not ⟨position, none⟩ operand)
  | complement {position : Position} {operand : Expr} (inner : Expressible operand) :
      Expressible (.complement ⟨position, none⟩ operand)
  | binary {position : Position} {operator : Operator} {left right : Expr}
      (inLeft : Expressible left) (inRight : Expressible right) :
      Expressible (.binary ⟨position, none⟩ operator left right)
  | identifier {position : Position} {name : String} :
      Expressible (.identifier ⟨position, none⟩ name)
  | integer {position : Position} {value : Int} (natural : 0 ≤ value)
      (small : value ≤ Text.maxInteger) : Expressible (.integer ⟨position, none⟩ value)
  | string {position : Position} {value : String} : Expressible (.string ⟨position, none⟩ value)
  | boolean {position : Position} {value : Bool} : Expressible (.boolean ⟨position, none⟩ value)

def Feature.Expressible : Feature → Prop
  | .attribute decl => ∀ init ∈ decl.init, init.Expressible
  | .method decl => decl.body.Expressible

/-- A program that can be written down: it has a class, and all its expressions can be. -/
def Program.Expressible (program : Program) : Prop :=
  program.classes ≠ [] ∧ ∀ decl ∈ program.classes, ∀ feature ∈ decl.features, feature.Expressible

open Rendering TokenKind

namespace Program

section

variable {tokens : List Token} {expr : Expr}

/-- In parentheses an expression may be any operand. -/
theorem Reads.operand (reads : Reads Phrase.expr tokens (.expr expr)) (phrase : Phrase)
    (wide : ∃ steps, Phrase.wider^[steps] .atom = phrase) :
    Reads phrase (enclosed tokens) (.expr expr) := by
  have atom : Reads Phrase.atom (enclosed tokens) (.expr expr) :=
    .of_built (.token _ (.cons reads (.token _ .nil))) rfl
  obtain ⟨steps, rfl⟩ := wide
  exact atom.widen steps

theorem Reads.inner (reads : Reads Phrase.expr tokens (.expr expr)) :
    Reads Phrase.expr (enclosed tokens) (.expr expr) :=
  reads.operand .expr ⟨8, rfl⟩

end

/-! ### Sequences -/

/-- A list with commas, for a phrase that is one item or an item before such a list. -/
theorem reads_separated {α : Type} {list item : Phrase} {whole : List α → Value} {part : α → Value}
    (single : ∀ first, built? list [item] [part first] = some (whole [first]))
    (more : ∀ first others, built? list [item, comma, list]
      [part first, .token (sign comma), whole others] = some (whole (first :: others)))
    {groups : List (List Token)} {parts : List α} (nonempty : parts ≠ [])
    (each : List.Forall₂ (fun tokens first => Reads item tokens (part first)) groups parts) :
    Reads list (separated groups) (whole parts) := by
  induction each with
  | nil => exact absurd rfl nonempty
  | cons reads others ih =>
      cases others with
      | nil => exact .of_built reads.alone (single _)
      | cons =>
          have inside := ih (List.cons_ne_nil _ _)
          exact .of_built (.cons reads (.token (sign comma) inside.alone)) (more _ _)

end Program

namespace Rendering

open Program

/-- Whether the tokens of an expression are read as it is, with its positions at the start. -/
def ReadsBack (spell : String → String) (expr : Expr) : Prop :=
  Reads Phrase.expr (ofExpr spell expr) (.expr (expr.relocate place))

variable {spell : String → String}

theorem forall₂_ofEach {exprs : List Expr} (each : ∀ expr ∈ exprs, ReadsBack spell expr) :
    List.Forall₂ (fun tokens expr => Reads Phrase.expr tokens (.expr expr)) (ofEach spell exprs)
      (Expr.relocateAll place exprs) := by
  induction exprs with
  | nil => exact .nil
  | cons expr exprs ih =>
      obtain ⟨reads, others⟩ := List.forall_mem_cons.mp each
      exact .cons reads.inner (ih others)

theorem reads_args {groups : List (List Token)} {args : List Expr} (nonempty : args ≠ [])
    (each : List.Forall₂ (fun tokens arg => Reads Phrase.expr tokens (.expr arg)) groups args) :
    Reads Phrase.argList (separated groups) (.exprs args) :=
  reads_separated (fun _ => rfl) (fun _ _ => rfl) nonempty each

theorem reads_block {body : List Expr} (nonempty : body ≠ [])
    (each : ∀ expr ∈ body, ReadsBack spell expr) :
    Reads Phrase.exprList
      ((ofEach spell body).flatMap (fun tokens => tokens ++ [sign semicolon]))
      (.exprs (Expr.relocateAll place body)) := by
  induction body with
  | nil => exact absurd rfl nonempty
  | cons expr body ih =>
      obtain ⟨reads, others⟩ := List.forall_mem_cons.mp each
      rw [ofEach, List.flatMap_cons, List.append_assoc]
      cases body with
      | nil => exact .of_built (.cons reads.inner (.token _ .nil)) rfl
      | cons =>
          have inside := ih (List.cons_ne_nil _ _) others
          exact .of_built (.cons reads.inner (.token _ inside.alone)) rfl

theorem forall₂_ofBindings {bindings : List (Binding Expr)}
    (each : ∀ binding ∈ bindings, ∀ init ∈ binding.init, ReadsBack spell init) :
    List.Forall₂ (fun tokens binding => Reads Phrase.letBinding tokens (.binding binding))
      (ofBindings spell bindings) (Expr.relocateBindings place bindings) := by
  induction bindings with
  | nil => exact .nil
  | cons binding bindings ih =>
      obtain ⟨reads, others⟩ := List.forall_mem_cons.mp each
      obtain ⟨name, type, init⟩ := binding
      refine .cons ?_ (ih others)
      cases type with
      | none =>
          cases init with
          | none => exact .of_built (.token _ .nil) rfl
          | some init =>
              exact .of_built (.token _ (.token _ (reads init rfl).inner.alone)) rfl
      | some type =>
          cases init with
          | none => exact .of_built (.token _ (.token _ (.token _ .nil))) rfl
          | some init =>
              exact .of_built
                (.token _ (.token _ (.token _ (.token _ (reads init rfl).inner.alone)))) rfl

theorem reads_bindings {bindings : List (Binding Expr)} (nonempty : bindings ≠ [])
    (each : ∀ binding ∈ bindings, ∀ init ∈ binding.init, ReadsBack spell init) :
    Reads Phrase.letList (separated (ofBindings spell bindings))
      (.bindings (Expr.relocateBindings place bindings)) := by
  refine reads_separated (fun _ => rfl) (fun _ _ => rfl) ?_ (forall₂_ofBindings each)
  cases bindings with
  | nil => exact absurd rfl nonempty
  | cons => exact List.cons_ne_nil _ _

theorem reads_ofBranches {branches : List (Branch Expr)} (nonempty : branches ≠ [])
    (each : ∀ branch ∈ branches, ReadsBack spell branch.body) :
    Reads Phrase.caseList (ofBranches spell branches)
      (.branches (Expr.relocateBranches place branches)) := by
  induction branches with
  | nil => exact absurd rfl nonempty
  | cons branch branches ih =>
      obtain ⟨reads, others⟩ := List.forall_mem_cons.mp each
      obtain ⟨name, type, body⟩ := branch
      simp only [ofBranches, List.cons_append, List.nil_append]
      cases branches with
      | nil =>
          exact .of_built (.token _ (.token _ (.token _ (.token _ (.cons reads.inner
            (.token _ .nil)))))) rfl
      | cons =>
          have inside := ih (List.cons_ne_nil _ _) others
          exact .of_built (.token _ (.token _ (.token _ (.token _ (.cons reads.inner
            (.token _ inside.alone)))))) rfl

theorem reads_params {params : List Param} (nonempty : params ≠ []) :
    Reads Phrase.paramList
      (separated (params.map fun param => [objectName param.name, sign colon, typeName param.type]))
      (.params (params.map fun param => ⟨param.name.relocate place, param.type.relocate place⟩)) := by
  have each : List.Forall₂ (fun tokens param => Reads Phrase.param tokens (.param param))
      (params.map fun param => [objectName param.name, sign colon, typeName param.type])
      (params.map fun param => ⟨param.name.relocate place, param.type.relocate place⟩) := by
    rw [List.forall₂_map_left_iff, List.forall₂_map_right_iff, List.forall₂_same]
    intro param _
    exact .of_built (.token _ (.token _ (.token _ .nil))) rfl
  exact reads_separated (fun _ => rfl) (fun _ _ => rfl) (mt List.map_eq_nil_iff.mp nonempty) each

/-! ### Expressions -/

theorem reads_call {cast : Option Ident} {method : Ident} {groups : List (List Token)}
    {args : List Expr}
    (each : List.Forall₂ (fun tokens arg => Reads Phrase.expr tokens (.expr arg)) groups args) :
    Reads Phrase.call (castTokens cast ++ objectName method :: enclosed (separated groups))
      (.call ⟨cast.map fun written => written.relocate place, method.relocate place, args⟩) := by
  cases each with
  | nil =>
      cases cast with
      | none => exact .of_built (.token _ (.token _ (.token _ (.token _ .nil)))) rfl
      | some written =>
          exact .of_built (.token _ (.token _ (.token _ (.token _ (.token _ (.token _ .nil)))))) rfl
  | cons first others =>
      have inside := reads_args (List.cons_ne_nil _ _) (.cons first others)
      cases cast with
      | none =>
          exact .of_built (.token _ (.token _ (.token _ (.cons inside (.token _ .nil))))) rfl
      | some written =>
          exact .of_built (.token _ (.token _ (.token _ (.token _ (.token _
            (.cons inside (.token _ .nil))))))) rfl

theorem enclosed_append (tokens rest : List Token) :
    enclosed tokens ++ rest = sign leftParen :: (tokens ++ sign rightParen :: rest) := by
  rw [enclosed, List.append_assoc]
  rfl

theorem reads_memberCall {method : Ident} {groups : List (List Token)} {args : List Expr}
    (each : List.Forall₂ (fun tokens arg => Reads Phrase.expr tokens (.expr arg)) groups args) :
    Reads Phrase.memberCall (objectName method :: enclosed (separated groups))
      (.expr (.dispatch ⟨.first, none⟩ none none (method.relocate place) args)) := by
  cases each with
  | nil => exact .of_built (.token _ (.token _ (.token _ .nil))) rfl
  | cons first others =>
      have inside := reads_args (List.cons_ne_nil _ _) (.cons first others)
      exact .of_built (.token _ (.token _ (.cons inside (.token _ .nil)))) rfl

theorem reads_dispatch (cast : Option Ident) (method : Ident) {receiver : Expr} {tokens : List Token}
    {groups : List (List Token)} {args : List Expr} (inner : Reads Phrase.expr tokens (.expr receiver))
    (each : List.Forall₂ (fun tokens arg => Reads Phrase.expr tokens (.expr arg)) groups args) :
    Reads Phrase.callFactor
      (enclosed tokens ++ (castTokens cast ++ objectName method :: enclosed (separated groups)))
      (.expr (.dispatch ⟨receiver.position, none⟩ (some receiver)
        (cast.map fun written => written.relocate place) (method.relocate place) args)) :=
  .of_built (.cons (inner.operand .callFactor ⟨1, rfl⟩) (reads_call each).alone) rfl

theorem reads_binary (operator : Operator) {left right : Expr} {front back : List Token}
    (inLeft : Reads Phrase.expr front (.expr left))
    (inRight : Reads Phrase.expr back (.expr right)) :
    Reads Phrase.expr (enclosed front ++ sign (operatorKind operator) :: enclosed back)
      (.expr (.binary ⟨left.position, none⟩ operator left right)) := by
  -- the left operand may be as wide as the result, the right one is narrower
  cases operator with
  | add | sub =>
      exact .of_operand .arith ⟨3, rfl⟩ (.of_built (.cons (inLeft.operand .arith ⟨5, rfl⟩)
        (.token _ (inRight.operand .term ⟨4, rfl⟩).alone)) rfl)
  | mul | div =>
      exact .of_operand .term ⟨4, rfl⟩ (.of_built (.cons (inLeft.operand .term ⟨4, rfl⟩)
        (.token _ (inRight.operand .factor ⟨3, rfl⟩).alone)) rfl)
  | less | lessEqual | equal =>
      exact .of_operand .comparison ⟨2, rfl⟩ (.of_built (.cons (inLeft.operand .comparison ⟨6, rfl⟩)
        (.token _ (inRight.operand .arith ⟨5, rfl⟩).alone)) rfl)

theorem reads_integer {value : Int} (natural : 0 ≤ value) (small : value ≤ Text.maxInteger) :
    Reads Phrase.expr [spelled .integer (toString value.toNat)]
      (.expr (.integer ⟨.first, none⟩ value)) := by
  have reads : Reads Phrase.expr [spelled .integer (toString value.toNat)]
      (.expr (.integer ⟨.first, none⟩ (Text.integerLiteral (toString value.toNat)))) :=
    .single _ rfl
  rw [Text.integerLiteral_toString (Int.toNat_le.mpr small), Int.toNat_of_nonneg natural] at reads
  exact reads

variable (spells : ∀ value, Text.stringLiteral (spell value) = value)

include spells

theorem reads_string (value : String) :
    Reads Phrase.expr [spelled .string (spell value)] (.expr (.string ⟨.first, none⟩ value)) := by
  have reads : Reads Phrase.expr [spelled .string (spell value)]
      (.expr (.string ⟨.first, none⟩ (Text.stringLiteral (spell value)))) :=
    .single _ rfl
  rw [spells] at reads
  exact reads

/-- An expression that can be written down is read back from its tokens. -/
theorem readsBack_of_expressible {expr : Expr} (expressible : expr.Expressible) :
    ReadsBack spell expr := by
  induction expressible with
  | assign _ inner => exact .of_built (.token _ (.token _ inner.inner.alone)) rfl
  | @dispatch _ receiver cast method args uncast _ _ inner each =>
      have reads := forall₂_ofEach each
      cases receiver with
      | none =>
          cases uncast rfl
          exact .of_operand .memberCall ⟨9, rfl⟩ (reads_memberCall reads)
      | some receiver =>
          have whole := reads_dispatch cast method (inner receiver rfl) reads
          rw [Expr.position_relocate] at whole
          rw [ReadsBack, ofExpr, ofReceiver, List.append_assoc]
          exact .of_operand .callFactor ⟨7, rfl⟩ whole
  | cond _ _ _ inTest inYes inNo =>
      simp only [ReadsBack, ofExpr, List.append_assoc, List.cons_append]
      exact .of_built (.token _ (.cons inTest.inner (.token _ (.cons inYes.inner (.token _
        (.cons inNo.inner (.token _ .nil))))))) rfl
  | loop _ _ inTest inBody =>
      simp only [ReadsBack, ofExpr, List.append_assoc, List.cons_append]
      exact .of_built (.token _ (.cons inTest.inner (.token _ (.cons inBody.inner
        (.token _ .nil))))) rfl
  | block nonempty _ each =>
      exact .of_built (.token _ (.cons (reads_block nonempty each) (.token _ .nil))) rfl
  | letIn nonempty _ _ each inner =>
      exact .of_built (.token _ (.cons (reads_bindings nonempty each) (.token _ inner.inner.alone))) rfl
  | caseOf _ nonempty _ inner each =>
      simp only [ReadsBack, ofExpr, List.append_assoc, List.cons_append]
      exact .of_built (.token _ (.cons inner.inner (.token _ (.cons (reads_ofBranches nonempty each)
        (.token _ .nil))))) rfl
  | new => exact .of_atom (.of_built (.token _ (.token _ .nil)) rfl)
  | isVoid _ inner =>
      exact .of_operand .factor ⟨5, rfl⟩
        (.of_built (.token _ (inner.operand .voidFactor ⟨2, rfl⟩).alone) rfl)
  | not _ inner =>
      exact .of_operand .truth ⟨1, rfl⟩
        (.of_built (.token _ (inner.operand .truth ⟨7, rfl⟩).alone) rfl)
  | complement _ inner =>
      exact .of_operand .voidFactor ⟨6, rfl⟩
        (.of_built (.token _ (inner.operand .callFactor ⟨1, rfl⟩).alone) rfl)
  | @binary _ operator _ _ _ _ inLeft inRight =>
      have whole := reads_binary operator inLeft inRight
      rw [Expr.position_relocate] at whole
      exact whole
  | identifier => exact .single _ rfl
  | integer natural small => exact reads_integer natural small
  | string => exact reads_string spells _
  | @boolean _ value => cases value <;> exact .single _ rfl

/-! ### Declarations -/

theorem reads_feature {feature : Feature} (expressible : feature.Expressible) :
    Reads Phrase.feature (ofFeature spell feature) (.feature (feature.relocate place)) := by
  match feature, expressible with
  | .attribute ⟨name, type, none⟩, _ =>
      exact .of_built (.token _ (.token _ (.token _ (.token _ .nil)))) rfl
  | .attribute ⟨name, type, some init⟩, expressible =>
      have inner := readsBack_of_expressible spells (expressible init rfl)
      exact .of_built (.token _ (.token _ (.token _ (.token _ (.cons inner.inner
        (.token _ .nil)))))) rfl
  | .method ⟨name, params, result, body⟩, expressible =>
      have inner := readsBack_of_expressible spells expressible
      simp only [ofFeature, List.append_assoc, List.cons_append, List.nil_append]
      rw [enclosed_append (separated _)]
      -- the grammar has a rule of its own for a method without parameters
      cases params with
      | nil =>
          exact .of_built (.token _ (.token _ (.token _ (.token _ (.token _ (.token _
            (.cons inner.inner (.token _ (.token _ .nil))))))))) rfl
      | cons param params =>
          exact .of_built (.token _ (.token _ (.cons (reads_params (List.cons_ne_nil _ _)) (.token _
            (.token _ (.token _ (.token _ (.cons inner.inner (.token _ (.token _ .nil)))))))))) rfl

theorem reads_features {features : List Feature}
    (each : ∀ feature ∈ features, feature.Expressible) :
    Reads Phrase.featureList (features.flatMap (ofFeature spell))
      (.features (features.map fun feature => feature.relocate place)) := by
  rw [List.flatMap_def]
  refine .features ?_
  rw [List.forall₂_map_left_iff, List.forall₂_map_right_iff, List.forall₂_same]
  exact fun feature member => reads_feature spells (each feature member)

theorem reads_class {decl : ClassDecl}
    (each : ∀ feature ∈ decl.features, feature.Expressible) :
    Reads Phrase.classDef (ofClass spell decl) (.classDecl (decl.relocate place)) := by
  obtain ⟨name, parent, features, position⟩ := decl
  have inner := reads_features spells each
  cases parent with
  | none =>
      exact .of_built (.token _ (.token _ (.token _ (.cons inner (.token _ (.token _ .nil)))))) rfl
  | some parent =>
      exact .of_built (.token _ (.token _ (.token _ (.token _ (.token _ (.cons inner
        (.token _ (.token _ .nil)))))))) rfl

end Rendering

namespace Program

variable {program : Program} {spell : String → String}

theorem parse_tokens (expressible : program.Expressible)
    (spells : ∀ value, Text.stringLiteral (spell value) = value) :
    parse (program.tokens spell) = .ok (program.relocate place) := by
  obtain ⟨nonempty, each⟩ := expressible
  have reads : List.Forall₂ (fun tokens decl => Reads Phrase.classDef tokens (.classDecl decl))
      (program.classes.map (ofClass spell)) (program.relocate place).classes := by
    rw [List.forall₂_map_left_iff]
    refine List.forall₂_map_right_iff.mpr (List.forall₂_same.mpr ?_)
    exact fun decl member => reads_class spells (each decl member)
  have whole : program.tokens spell = (program.classes.map (ofClass spell)).flatten ++ [sign endOfInput] := by
    rw [Program.tokens, List.flatMap_def]
  exact parse_of_classes (fun none => nonempty (List.map_eq_nil_iff.mp none)) reads _ whole rfl

/-- Every program that can be written down is parsed back from its tokens, but for the positions. The
tokens may stand anywhere. Words and signs may be spelled in any way, a name as it is, and a literal in
any way that has the value. -/
theorem parse_written (expressible : program.Expressible)
    (spells : ∀ value, Text.stringLiteral (spell value) = value) {tokens : List Token}
    (written : List.Forall₂ (Token.Moved place) tokens (program.tokens spell)) :
    ∃ parsed, parse tokens = .ok parsed ∧ parsed.SameShape program :=
  parse_of_moved written (parse_tokens expressible spells)

section

private def named (name : String) : Ident :=
  ⟨name, ⟨9, 9⟩⟩

private def bare : Note :=
  ⟨⟨9, 9⟩, none⟩

/-- A class with an initialized attribute, and a method that says something to a part of itself. -/
def speaker : Program where
  classes := [{
    name := named "Main"
    parent := some (named "IO")
    features := [
      .attribute ⟨named "count", named "Int", some (.integer bare 12)⟩,
      .method ⟨named "main", [⟨named "step", named "Int"⟩], named "Object",
        .letIn bare
          [⟨named "next", none, some (.binary bare .add (.identifier bare "count")
            (.binary bare .mul (.identifier bare "step") (.identifier bare "step")))⟩]
          (.dispatch bare (some (.identifier bare "self")) (some (named "IO")) (named "out_string")
            [.string bare "a \"b\" c"])⟩]
    position := ⟨9, 9⟩ }]

/-- A token elsewhere, and in capitals if it is a keyword. -/
def respelled (token : Token) : Token :=
  ⟨token.kind, if token.kind ∈ keywords then token.lexeme.toUpper else token.lexeme, ⟨2, 5⟩⟩

theorem parse_written_speaker :
    speaker.Expressible ∧
      List.Forall₂ (Token.Moved place) ((speaker.tokens Text.quote).map respelled)
        (speaker.tokens Text.quote) ∧
      ∃ parsed, parse ((speaker.tokens Text.quote).map respelled) = .ok parsed ∧
        parsed.SameShape speaker := by
  have number : Expr.Expressible (.integer bare 12) := .integer (by decide) (by decide)
  have sum : Expr.Expressible (.binary bare .add (.identifier bare "count")
      (.binary bare .mul (.identifier bare "step") (.identifier bare "step"))) :=
    .binary .identifier (.binary .identifier .identifier)
  have saying : Expr.Expressible (.dispatch bare (some (.identifier bare "self"))
      (some (named "IO")) (named "out_string") [.string bare "a \"b\" c"]) := by
    refine .dispatch (fun impossible => nomatch impossible) ?_ (List.forall_mem_singleton.mpr .string)
    intro receiver isReceiver
    cases isReceiver
    exact .identifier
  have expressible : speaker.Expressible := by
    simp only [Program.Expressible, speaker, List.forall_mem_singleton, List.forall_mem_cons]
    refine ⟨List.cons_ne_nil _ _, ?_, .letIn (List.cons_ne_nil _ _) ?_ saying⟩
    · intro init isInit
      cases isInit
      exact number
    · rw [List.forall_mem_singleton]
      intro init isInit
      cases isInit
      exact sum
  have written : List.Forall₂ (Token.Moved place) ((speaker.tokens Text.quote).map respelled)
      (speaker.tokens Text.quote) := by
    decide +kernel
  exact ⟨expressible, written, parse_written expressible Text.stringLiteral_quote written⟩

end

end Program

end CoolLang
