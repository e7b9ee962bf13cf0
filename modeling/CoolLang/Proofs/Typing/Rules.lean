import CoolLang.Program.Notes
import CoolLang.Proofs.Hierarchy.Conformance

/-!
The typing rules. A program is well typed if every expression has a type that the rules of the language give it
in its scope (`HasType`), and the types of features are kept (`Program.WellTyped`). The rules know classes only:
no type in them stands for something that is not known.
-/

namespace CoolLang

/-- The names in sight with the classes of their values, innermost first. -/
abbrev Sight := List (String × TypeId)

namespace Hierarchy

variable (hierarchy : Hierarchy)

/-- Whether a declaration, inside a class, is of values of another class: the one that it names, or any one where
this is to be inferred. -/
structure Reads (current declared type : TypeId) : Prop where
  isClass : hierarchy.IsClass type
  written : declared ≠ .autoType → type = declared.resolveIn current

/-- Whether the type of a binding is written so, or else left out. -/
def Writes (written : Option Ident) (declared : TypeId) : Prop :=
  match written with
  | none => declared = .autoType
  | some written => hierarchy.find? written.name = some declared

end Hierarchy

section

variable (hierarchy : Hierarchy) (current : TypeId)

mutual

/-- Whether an expression with these names in sight has a type inside a class. It carries that type, and so do all
expressions inside it carry theirs. -/
inductive HasType : Sight → Expr → TypeId → Prop where
  | integer {sight : Sight} {position : Position} {value : Int} :
      HasType sight (.integer ⟨position, some .int⟩ value) .int
  | string {sight : Sight} {position : Position} {value : String} :
      HasType sight (.string ⟨position, some .string⟩ value) .string
  | boolean {sight : Sight} {position : Position} {value : Bool} :
      HasType sight (.boolean ⟨position, some .bool⟩ value) .bool
  | identifier {sight : Sight} {position : Position} {name : String} {type : TypeId}
      (isSeen : sight.lookup name = some type) (isClass : hierarchy.IsClass type) :
      HasType sight (.identifier ⟨position, some type⟩ name) type
  | assign {sight : Sight} {position : Position} {target : Ident} {value : Expr} {type expected : TypeId}
      (notSelf : target.name ≠ "self") (isSeen : sight.lookup target.name = some expected)
      (ofValue : HasType sight value type) (conforms : hierarchy.Conforms type expected) :
      HasType sight (.assign ⟨position, some type⟩ target value) type
  | dispatch {sight : Sight} {position : Position} {receiver : Option Expr} {name : Ident} {args : List Expr}
      {type : TypeId} {method : Method} (ofReceiver : HasReceiver sight receiver type)
      (calls : hierarchy.Calls type name.name method)
      (ofArgs : HasArgs sight args (method.params.map Variable.type))
      (isClass : hierarchy.IsClass (method.result.type.resolveIn type)) :
      HasType sight (.dispatch ⟨position, some (method.result.type.resolveIn type)⟩ receiver none name args)
        (method.result.type.resolveIn type)
  | static {sight : Sight} {position : Position} {receiver : Option Expr} {cast name : Ident} {args : List Expr}
      {type owner : TypeId} {method : Method} (ofReceiver : HasReceiver sight receiver type)
      (names : hierarchy.find? cast.name = some owner) (conforms : hierarchy.Conforms type owner)
      (calls : hierarchy.Calls owner name.name method)
      (ofArgs : HasArgs sight args (method.params.map Variable.type))
      (isClass : hierarchy.IsClass (method.result.type.resolveIn type)) :
      HasType sight (.dispatch ⟨position, some (method.result.type.resolveIn type)⟩ receiver (some cast) name args)
        (method.result.type.resolveIn type)
  | cond {sight : Sight} {position : Position} {test yes no : Expr} {one two join : TypeId}
      (ofTest : HasType sight test .bool) (ofYes : HasType sight yes one) (ofNo : HasType sight no two)
      (joins : hierarchy.Joins [one, two] join) :
      HasType sight (.cond ⟨position, some join⟩ test yes no) join
  | loop {sight : Sight} {position : Position} {test body : Expr} {type : TypeId}
      (ofTest : HasType sight test .bool) (ofBody : HasType sight body type) :
      HasType sight (.loop ⟨position, some .object⟩ test body) .object
  | block {sight : Sight} {position : Position} {body : List Expr} {type : TypeId}
      (ofBody : HasBlock sight body type) : HasType sight (.block ⟨position, some type⟩ body) type
  | letIn {sight : Sight} {position : Position} {bindings : List (Binding Expr)} {body : Expr} {type : TypeId}
      (ofBindings : HasLet sight bindings body type) :
      HasType sight (.letIn ⟨position, some type⟩ bindings body) type
  | caseOf {sight : Sight} {position : Position} {scrutinee : Expr} {branches : List (Branch Expr)}
      {type join : TypeId} {declared types : List TypeId} (ofScrutinee : HasType sight scrutinee type)
      (ofBranches : HasBranches sight branches declared types) (distinct : declared.Nodup)
      (joins : hierarchy.Joins types join) :
      HasType sight (.caseOf ⟨position, some join⟩ scrutinee branches) join
  | new {sight : Sight} {position : Position} {written : Ident} {named : TypeId}
      (names : hierarchy.find? written.name = some named)
      (isClass : hierarchy.IsClass (named.resolveIn current)) :
      HasType sight (.new ⟨position, some (named.resolveIn current)⟩ written) (named.resolveIn current)
  | isVoid {sight : Sight} {position : Position} {operand : Expr} {type : TypeId}
      (ofOperand : HasType sight operand type) : HasType sight (.isVoid ⟨position, some .bool⟩ operand) .bool
  | not {sight : Sight} {position : Position} {operand : Expr} (ofOperand : HasType sight operand .bool) :
      HasType sight (.not ⟨position, some .bool⟩ operand) .bool
  | complement {sight : Sight} {position : Position} {operand : Expr} (ofOperand : HasType sight operand .int) :
      HasType sight (.complement ⟨position, some .int⟩ operand) .int
  | binary {sight : Sight} {position : Position} {operator : Operator} {left right : Expr}
      (notEqual : operator ≠ .equal) (ofLeft : HasType sight left .int) (ofRight : HasType sight right .int) :
      HasType sight (.binary ⟨position, some operator.resultType⟩ operator left right) operator.resultType
  | equal {sight : Sight} {position : Position} {left right : Expr} {one two : TypeId}
      (ofLeft : HasType sight left one) (ofRight : HasType sight right two)
      (comparable : one ∈ primitives ∨ two ∈ primitives → one = two) :
      HasType sight (.binary ⟨position, some .bool⟩ .equal left right) .bool

/-- Whether a receiver has a type, which is the class around where it is left out. -/
inductive HasReceiver : Sight → Option Expr → TypeId → Prop where
  | self {sight : Sight} : HasReceiver sight none current
  | written {sight : Sight} {receiver : Expr} {type : TypeId} (ofReceiver : HasType sight receiver type) :
      HasReceiver sight (some receiver) type

/-- Whether there is an argument for each parameter, with a value of its type. -/
inductive HasArgs : Sight → List Expr → List TypeId → Prop where
  | nil {sight : Sight} : HasArgs sight [] []
  | cons {sight : Sight} {arg : Expr} {args : List Expr} {type param : TypeId} {params : List TypeId}
      (ofArg : HasType sight arg type) (conforms : hierarchy.Conforms type param)
      (ofArgs : HasArgs sight args params) : HasArgs sight (arg :: args) (param :: params)

/-- Whether a sequence has a type, which is that of its last expression. -/
inductive HasBlock : Sight → List Expr → TypeId → Prop where
  | last {sight : Sight} {expr : Expr} {type : TypeId} (ofExpr : HasType sight expr type) :
      HasBlock sight [expr] type
  | cons {sight : Sight} {expr next : Expr} {exprs : List Expr} {ignored type : TypeId}
      (ofExpr : HasType sight expr ignored) (ofExprs : HasBlock sight (next :: exprs) type) :
      HasBlock sight (expr :: next :: exprs) type

/-- Whether a body has a type inside bindings, each of which is in sight of those after it. -/
inductive HasLet : Sight → List (Binding Expr) → Expr → TypeId → Prop where
  | body {sight : Sight} {body : Expr} {type : TypeId} (ofBody : HasType sight body type) :
      HasLet sight [] body type
  | cons {sight : Sight} {name : Ident} {written : Option Ident} {init : Option Expr}
      {bindings : List (Binding Expr)} {body : Expr} {declared known type : TypeId}
      (writes : hierarchy.Writes written declared) (reads : hierarchy.Reads current declared known)
      (ofInit : HasInit sight init known) (ofBody : HasLet ((name.name, known) :: sight) bindings body type) :
      HasLet sight (⟨name, written, init⟩ :: bindings) body type

/-- Whether an initializer, if there is one, has a value of a type. -/
inductive HasInit : Sight → Option Expr → TypeId → Prop where
  | none {sight : Sight} {expected : TypeId} : HasInit sight none expected
  | some {sight : Sight} {init : Expr} {type expected : TypeId} (ofInit : HasType sight init type)
      (conforms : hierarchy.Conforms type expected) : HasInit sight (some init) expected

/-- Whether branches are for classes, and have types. -/
inductive HasBranches : Sight → List (Branch Expr) → List TypeId → List TypeId → Prop where
  | nil {sight : Sight} : HasBranches sight [] [] []
  | cons {sight : Sight} {name written : Ident} {body : Expr} {branches : List (Branch Expr)}
      {named type : TypeId} {declared types : List TypeId} (names : hierarchy.find? written.name = some named)
      (isClass : hierarchy.IsClass named) (ofBody : HasType ((name.name, named) :: sight) body type)
      (ofBranches : HasBranches sight branches declared types) :
      HasBranches sight (⟨name, written, body⟩ :: branches) (named :: declared) (type :: types)

end

/-- Whether these are the parameters of a method with the classes of their values. -/
def Hierarchy.Takes (params : List Param) (sight : Sight) : Prop :=
  List.Forall₂ (fun param entry => entry.1 = param.name.name ∧ ∃ declared,
    hierarchy.find? param.type.name = some declared ∧ declared ≠ .selfType ∧
      hierarchy.Reads current declared entry.2) params sight

/-- Whether the value of an attribute conforms to the type that the hierarchy has for it, which is declared or
inferred. -/
def AttributeDecl.WellTyped (sight : Sight) (decl : AttributeDecl) : Prop :=
  ∃ attr ∈ (hierarchy.info current).attributes, attr.name = decl.name.name ∧
    (∃ declared, hierarchy.find? decl.type.name = some declared ∧
      hierarchy.Reads current declared (attr.type.resolveIn current)) ∧
    HasInit hierarchy current (("self", current) :: sight) decl.init (attr.type.resolveIn current)

/-- Whether the value of a body conforms to the result type that the hierarchy has for a method, which is declared
or inferred. The parameters have the types that the hierarchy has for them once inference has `settled`. -/
def MethodDecl.WellTyped (settled : Prop) (sight : Sight) (decl : MethodDecl) : Prop :=
  ∃ method ∈ (hierarchy.info current).methods, method.name = decl.name.name ∧
    hierarchy.Takes current decl.params (method.params.map fun param => (param.name, param.type)) ∧
    (∃ declared, hierarchy.find? decl.result.name = some declared ∧
      hierarchy.Reads current declared (method.result.type.resolveIn current)) ∧
    ∃ params type, hierarchy.Takes current decl.params params ∧
      (settled → params = method.params.map fun param => (param.name, param.type)) ∧
      HasType hierarchy current (("self", current) :: (params ++ sight)) decl.body type ∧
      hierarchy.Conforms type (method.result.type.resolveIn current)

def Feature.WellTyped (settled : Prop) (sight : Sight) : Feature → Prop
  | .attribute decl => decl.WellTyped hierarchy current sight
  | .method decl => decl.WellTyped hierarchy current settled sight

/-- Whether these are the attributes of a class and its ancestors, as they are declared, with the classes of
their values. These are the types that the hierarchy has for them once inference has `settled`. -/
structure Hierarchy.Shows (declared : Hierarchy) (settled : Prop) (sight : Sight) : Prop where
  attributes : List.Forall₂ (fun (attr : Attribute) entry => entry.1 = attr.name ∧
      hierarchy.Reads current attr.type entry.2)
    ((hierarchy.ancestors current).flatMap fun owner => (declared.info owner).attributes) sight
  settles : settled → sight = (hierarchy.ancestors current).flatMap fun owner =>
    (hierarchy.info owner).attributes.map fun attr => (attr.name, attr.type.resolveIn current)

end

/-- Whether every class of a program has a type, and the features of each are well typed with the attributes of
the class and its ancestors in sight. -/
structure Program.WellTyped (settled : Prop) (hierarchy declared : Hierarchy) (types : ClassTypes)
    (program : Program) : Prop where
  typed : (program.typed types).map Prod.fst = program.classes
  features : ∀ class' ∈ program.typed types, ∃ sight, hierarchy.Shows class'.2 declared settled sight ∧
    ∀ feature ∈ class'.1.features, feature.WellTyped hierarchy class'.2 settled sight

/-- Whether an expression has a class as its static type. -/
def Note.OfClass (hierarchy : Hierarchy) (note : Note) : Prop :=
  ∃ type, note.type = some type ∧ hierarchy.IsClass type

/-! ### Static types -/

section

variable {hierarchy : Hierarchy} (rooted : hierarchy.Rooted)
include rooted

theorem Hierarchy.Rooted.isClass_int : hierarchy.IsClass .int :=
  rooted.isClass_builtin rfl (by decide)

theorem Hierarchy.Rooted.isClass_string : hierarchy.IsClass .string :=
  rooted.isClass_builtin rfl (by decide)

theorem Hierarchy.Rooted.isClass_bool : hierarchy.IsClass .bool :=
  rooted.isClass_builtin rfl (by decide)

theorem Hierarchy.Rooted.isClass_resultType (operator : Operator) : hierarchy.IsClass operator.resultType := by
  unfold Operator.resultType
  split
  · exact rooted.isClass_int
  · exact rooted.isClass_bool

end

section

variable {hierarchy : Hierarchy} {current : TypeId}

theorem Note.ofClass_cons {position : Position} {type : TypeId} {notes : List Note} (isClass : hierarchy.IsClass type)
    (later : ∀ note ∈ notes, note.OfClass hierarchy) :
    ∀ note ∈ (⟨position, some type⟩ : Note) :: notes, note.OfClass hierarchy :=
  List.forall_mem_cons.mpr ⟨⟨type, rfl, isClass⟩, later⟩

mutual

theorem HasType.notes (rooted : hierarchy.Rooted) : (expr : Expr) → ∀ {sight : Sight} {type : TypeId},
    HasType hierarchy current sight expr type →
      (∀ note ∈ expr.notes, note.OfClass hierarchy) ∧ hierarchy.IsClass type
  | .integer .., _, _, typing => by
      cases typing
      exact ⟨Note.ofClass_cons rooted.isClass_int nofun, rooted.isClass_int⟩
  | .string .., _, _, typing => by
      cases typing
      exact ⟨Note.ofClass_cons rooted.isClass_string nofun, rooted.isClass_string⟩
  | .boolean .., _, _, typing => by
      cases typing
      exact ⟨Note.ofClass_cons rooted.isClass_bool nofun, rooted.isClass_bool⟩
  | .identifier .., _, _, typing => by
      cases typing with
      | identifier _ isClass => exact ⟨Note.ofClass_cons isClass nofun, isClass⟩
  | .assign _ _ value, _, _, typing => by
      cases typing with
      | assign _ _ ofValue _ =>
          obtain ⟨notes, isClass⟩ := HasType.notes rooted value ofValue
          exact ⟨Note.ofClass_cons isClass notes, isClass⟩
  | .dispatch _ receiver cast _ args, _, _, typing => by
      cases typing with
      | dispatch ofReceiver _ ofArgs isClass | static ofReceiver _ _ _ ofArgs isClass =>
          exact ⟨Note.ofClass_cons isClass (List.forall_mem_append.mpr
            ⟨HasReceiver.notes rooted receiver ofReceiver, HasArgs.notes rooted args ofArgs⟩), isClass⟩
  | .cond _ test yes no, _, _, typing => by
      cases typing with
      | cond ofTest ofYes ofNo joins =>
          have isClass := joins.isClass
          exact ⟨Note.ofClass_cons isClass (List.forall_mem_append.mpr ⟨(HasType.notes rooted test ofTest).1,
            List.forall_mem_append.mpr
              ⟨(HasType.notes rooted yes ofYes).1, (HasType.notes rooted no ofNo).1⟩⟩), isClass⟩
  | .loop _ test body, _, _, typing => by
      cases typing with
      | loop ofTest ofBody =>
          exact ⟨Note.ofClass_cons rooted.isClass_object (List.forall_mem_append.mpr
            ⟨(HasType.notes rooted test ofTest).1, (HasType.notes rooted body ofBody).1⟩), rooted.isClass_object⟩
  | .block _ body, _, _, typing => by
      cases typing with
      | block ofBody =>
          obtain ⟨notes, isClass⟩ := HasBlock.notes rooted body ofBody
          exact ⟨Note.ofClass_cons isClass notes, isClass⟩
  | .letIn _ bindings body, _, _, typing => by
      cases typing with
      | letIn ofBindings =>
          obtain ⟨notes, isClass⟩ := HasLet.notes rooted (HasType.notes rooted body) bindings ofBindings
          exact ⟨Note.ofClass_cons isClass notes, isClass⟩
  | .caseOf _ scrutinee branches, _, _, typing => by
      cases typing with
      | caseOf ofScrutinee ofBranches _ joins =>
          exact ⟨Note.ofClass_cons joins.isClass (List.forall_mem_append.mpr
            ⟨(HasType.notes rooted scrutinee ofScrutinee).1, HasBranches.notes rooted branches ofBranches⟩),
            joins.isClass⟩
  | .new .., _, _, typing => by
      cases typing with
      | new _ isClass => exact ⟨Note.ofClass_cons isClass nofun, isClass⟩
  | .isVoid _ operand, _, _, typing => by
      cases typing with
      | isVoid ofOperand =>
          exact ⟨Note.ofClass_cons rooted.isClass_bool (HasType.notes rooted operand ofOperand).1, rooted.isClass_bool⟩
  | .not _ operand, _, _, typing => by
      cases typing with
      | not ofOperand =>
          exact ⟨Note.ofClass_cons rooted.isClass_bool (HasType.notes rooted operand ofOperand).1, rooted.isClass_bool⟩
  | .complement _ operand, _, _, typing => by
      cases typing with
      | complement ofOperand =>
          exact ⟨Note.ofClass_cons rooted.isClass_int (HasType.notes rooted operand ofOperand).1, rooted.isClass_int⟩
  | .binary _ _ left right, _, _, typing => by
      cases typing with
      | binary _ ofLeft ofRight =>
          exact ⟨Note.ofClass_cons (rooted.isClass_resultType _) (List.forall_mem_append.mpr
            ⟨(HasType.notes rooted left ofLeft).1, (HasType.notes rooted right ofRight).1⟩),
            rooted.isClass_resultType _⟩
      | equal ofLeft ofRight _ =>
          exact ⟨Note.ofClass_cons rooted.isClass_bool (List.forall_mem_append.mpr
            ⟨(HasType.notes rooted left ofLeft).1, (HasType.notes rooted right ofRight).1⟩), rooted.isClass_bool⟩

theorem HasReceiver.notes (rooted : hierarchy.Rooted) : (receiver : Option Expr) →
    ∀ {sight : Sight} {type : TypeId}, HasReceiver hierarchy current sight receiver type →
      ∀ note ∈ Expr.notesOption receiver, note.OfClass hierarchy
  | none, _, _, _ => nofun
  | some receiver, _, _, typing => by
      cases typing with
      | written ofReceiver => exact (HasType.notes rooted receiver ofReceiver).1

theorem HasArgs.notes (rooted : hierarchy.Rooted) : (args : List Expr) → ∀ {sight : Sight} {params : List TypeId},
    HasArgs hierarchy current sight args params → ∀ note ∈ Expr.notesAll args, note.OfClass hierarchy
  | [], _, _, _ => nofun
  | arg :: args, _, _, typing => by
      cases typing with
      | cons ofArg _ ofArgs =>
          exact List.forall_mem_append.mpr ⟨(HasType.notes rooted arg ofArg).1, HasArgs.notes rooted args ofArgs⟩

theorem HasBlock.notes (rooted : hierarchy.Rooted) : (exprs : List Expr) → ∀ {sight : Sight} {type : TypeId},
    HasBlock hierarchy current sight exprs type →
      (∀ note ∈ Expr.notesAll exprs, note.OfClass hierarchy) ∧ hierarchy.IsClass type
  | [], _, _, typing => nomatch typing
  | [expr], _, _, typing => by
      cases typing with
      | last ofExpr =>
          obtain ⟨notes, isClass⟩ := HasType.notes rooted expr ofExpr
          exact ⟨List.forall_mem_append.mpr ⟨notes, nofun⟩, isClass⟩
  | expr :: next :: exprs, _, _, typing => by
      cases typing with
      | cons ofExpr ofExprs =>
          obtain ⟨notes, isClass⟩ := HasBlock.notes rooted (next :: exprs) ofExprs
          exact ⟨List.forall_mem_append.mpr ⟨(HasType.notes rooted expr ofExpr).1, notes⟩, isClass⟩

theorem HasLet.notes (rooted : hierarchy.Rooted) {body : Expr} {type : TypeId}
    (ofBody : ∀ {sight : Sight}, HasType hierarchy current sight body type →
      (∀ note ∈ body.notes, note.OfClass hierarchy) ∧ hierarchy.IsClass type) :
    (bindings : List (Binding Expr)) → ∀ {sight : Sight},
    HasLet hierarchy current sight bindings body type →
      (∀ note ∈ Expr.notesBindings bindings ++ body.notes, note.OfClass hierarchy) ∧ hierarchy.IsClass type
  | [], _, typing => by
      cases typing with
      | body typed => exact ofBody typed
  | ⟨_, _, init⟩ :: bindings, _, typing => by
      cases typing with
      | cons _ _ ofInit ofRest =>
          obtain ⟨notes, isClass⟩ := HasLet.notes rooted ofBody bindings ofRest
          rw [Expr.notesBindings, List.append_assoc]
          exact ⟨List.forall_mem_append.mpr ⟨HasInit.notes rooted init ofInit, notes⟩, isClass⟩

theorem HasInit.notes (rooted : hierarchy.Rooted) : (init : Option Expr) → ∀ {sight : Sight} {type : TypeId},
    HasInit hierarchy current sight init type → ∀ note ∈ Expr.notesOption init, note.OfClass hierarchy
  | none, _, _, _ => nofun
  | some init, _, _, typing => by
      cases typing with
      | some ofInit _ => exact (HasType.notes rooted init ofInit).1

theorem HasBranches.notes (rooted : hierarchy.Rooted) : (branches : List (Branch Expr)) →
    ∀ {sight : Sight} {declared types : List TypeId}, HasBranches hierarchy current sight branches declared types →
      ∀ note ∈ Expr.notesBranches branches, note.OfClass hierarchy
  | [], _, _, _, _ => nofun
  | ⟨_, _, body⟩ :: branches, _, _, _, typing => by
      cases typing with
      | cons _ _ ofBody ofBranches =>
          exact List.forall_mem_append.mpr
            ⟨(HasType.notes rooted body ofBody).1, HasBranches.notes rooted branches ofBranches⟩

end

theorem HasReceiver.isClass (rooted : hierarchy.Rooted) (ofCurrent : hierarchy.IsClass current) {sight : Sight}
    {receiver : Option Expr} {type : TypeId} (typing : HasReceiver hierarchy current sight receiver type) :
    hierarchy.IsClass type := by
  cases typing with
  | self => exact ofCurrent
  | written ofReceiver => exact (HasType.notes rooted _ ofReceiver).2

end

end CoolLang
