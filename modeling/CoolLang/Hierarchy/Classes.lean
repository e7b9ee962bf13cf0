import CoolLang.Hierarchy.Basic
import CoolLang.Program.Basic
import CoolLang.Source.Diagnostic

/-!
The classes of a program as types. `Hierarchy.collect` registers their names; a class whose name is
taken gets no type and no later pass looks into it. `Hierarchy.build` then links the parents, breaks
cycles, registers all signatures and reports overrides that change what is inherited. A step that reports
is run over a list by `reportEach`: the state is handed from element to element, and the diagnostics of all
of them are kept in order.
-/

namespace CoolLang

/-- What a step leaves: the new state and the diagnostics it has found. -/
abbrev Reported (σ : Type) := σ × List Diagnostic

def reportEach {σ α : Type} (step : σ → α → Reported σ) : σ → List α → Reported σ
  | state, [] => (state, [])
  | state, item :: items =>
      let (next, front) := step state item
      let (final, back) := reportEach step next items
      (final, front ++ back)

/-- The type of each class of a program, in order; none for a class that the passes skip. -/
abbrev ClassTypes := List (Option TypeId)

/-- The classes that have a type. -/
def Program.typed (program : Program) (types : ClassTypes) : List (ClassDecl × TypeId) :=
  (program.classes.zip types).filterMap fun (decl, type) => type.map fun type => (decl, type)

namespace Hierarchy

/-- Registers the names of classes in order. -/
def collectAll : Hierarchy → List ClassDecl → Hierarchy × ClassTypes × List Diagnostic
  | hierarchy, [] => (hierarchy, [], [])
  | hierarchy, decl :: decls =>
      match hierarchy.create decl.name.name with
      | .ok (type, next) =>
          let (final, types, found) := collectAll next decls
          (final, some type :: types, found)
      | .error error =>
          let (final, types, found) := collectAll hierarchy decls
          (final, none :: types, ⟨decl.name.position, error.problem⟩ :: found)

/-- Registers the name of every class of a program. -/
def collect (hierarchy : Hierarchy) (program : Program) :
    Hierarchy × ClassTypes × List Diagnostic :=
  hierarchy.collectAll program.classes

/-- The parent that a class declares, or `Object` where it declares none or one that cannot be. -/
def declaredParent (hierarchy : Hierarchy) (decl : ClassDecl) : Reported TypeId :=
  match decl.parent with
  | none => (.object, [])
  | some written =>
      match hierarchy.get written.name with
      | .error error => (.object, [⟨written.position, error.problem⟩])
      | .ok parent =>
          if !parent.isConcrete || (hierarchy.info parent).isSealed then
            (.object, [⟨written.position, .invalidParent decl.name.name written.name⟩])
          else
            (parent, [])

def linkParent (hierarchy : Hierarchy) (typed : ClassDecl × TypeId) : Reported Hierarchy :=
  let (parent, found) := hierarchy.declaredParent typed.1
  (hierarchy.setParent typed.2 parent, found)

/-- Whether a type is its own proper ancestor. -/
def isOnCycle (hierarchy : Hierarchy) (type : TypeId) : Bool :=
  ((hierarchy.ancestors type).drop 1).contains type

/-- Takes a class off a cycle of parents, which ends the cycle for the other classes on it. -/
def breakCycle (hierarchy : Hierarchy) (typed : ClassDecl × TypeId) : Reported Hierarchy :=
  let (decl, type) := typed
  if hierarchy.isOnCycle type then
    (hierarchy.setParent type .object, [⟨decl.position, .cyclicInheritance decl.name.name⟩])
  else
    (hierarchy, [])

/-- The type that a declaration names; the error type where there is none. -/
def resolve (hierarchy : Hierarchy) (written : Ident) : Reported TypeId :=
  match hierarchy.get written.name with
  | .ok type => (type, [])
  | .error error => (.error, [⟨written.position, error.problem⟩])

/-- The type of a parameter, which cannot be that of the class around it. -/
def resolveParam (hierarchy : Hierarchy) (param : Param) : Reported (String × TypeId) :=
  let (type, found) := hierarchy.resolve param.type
  if type = .selfType then
    ((param.name.name, .error),
      found ++ [⟨param.type.position, .illegalSelfType param.type.name "a parameter type"⟩])
  else
    ((param.name.name, type), found)

/-- The hierarchy after a definition, or else as it was and with a diagnostic. -/
def orReport (hierarchy : Hierarchy) (position : Position) :
    Except HierarchyError Hierarchy → Reported Hierarchy
  | .ok next => (next, [])
  | .error error => (hierarchy, [⟨position, error.problem⟩])

/-- Registers one attribute or method of a type. -/
def defineFeature (type : TypeId) (hierarchy : Hierarchy) : Feature → Reported Hierarchy
  | .attribute decl =>
      let (declared, unresolved) := hierarchy.resolve decl.type
      let (next, refused) := hierarchy.orReport decl.name.position <|
        hierarchy.defineAttribute type ⟨decl.name.name, declared, decl.name.position⟩
      (next, unresolved ++ refused)
  | .method decl =>
      let params := decl.params.map hierarchy.resolveParam
      let (result, unresolved) := hierarchy.resolve decl.result
      let (next, refused) := hierarchy.orReport decl.name.position <|
        hierarchy.defineMethod type <|
          .declared decl.name.name (params.map Prod.fst) result decl.name.position
      (next, params.flatMap Prod.snd ++ unresolved ++ refused)

def defineFeatures (hierarchy : Hierarchy) (typed : ClassDecl × TypeId) : Reported Hierarchy :=
  reportEach (defineFeature typed.2) hierarchy typed.1.features

/-- Whether two declared types agree as far as they are known. -/
def sameType (left right : TypeId) : Bool :=
  left == right || !left.isChecked || !right.isChecked

def sameSignature (left right : Method) : Bool :=
  left.params.length == right.params.length &&
    (left.params.zip right.params).all (fun (left, right) => sameType left.type right.type) &&
    sameType left.result.type right.result.type

/-- An attribute that an ancestor has already. -/
def attributeOverride? (hierarchy : Hierarchy) (parent : TypeId) (attr : Attribute) :
    Option Diagnostic :=
  (hierarchy.attribute? parent attr.name).map fun (owner, _) =>
    ⟨attr.position, .duplicateAttribute attr.name (hierarchy.name owner)⟩

/-- A method whose signature is not that of the inherited method of its name. -/
def methodOverride? (hierarchy : Hierarchy) (type parent : TypeId) (method : Method) :
    Option Diagnostic :=
  match hierarchy.method? parent method.name with
  | none => none
  | some (owner, inherited) =>
      if sameSignature method inherited then none
      else some ⟨method.position,
        .wrongOverride method.name (hierarchy.name type) (hierarchy.name owner)⟩

/-- The features of a type that do not fit what it inherits: attributes first, then methods. -/
def overrides (hierarchy : Hierarchy) (type : TypeId) : List Diagnostic :=
  match hierarchy.parent? type with
  | none => []
  | some parent =>
      let info := hierarchy.info type
      info.attributes.filterMap (hierarchy.attributeOverride? parent) ++
        info.methods.filterMap (hierarchy.methodOverride? type parent)

/-- A program needs a class `Main` with a method `main` that takes no arguments. -/
def missingMain (hierarchy : Hierarchy) (typed : List (ClassDecl × TypeId)) : List Diagnostic :=
  let main := typed.find? fun (decl, _) => decl.name.name == "Main"
  let method := main.bind fun (_, type) => hierarchy.method? type "main"
  if method.any fun (_, method) => method.params.isEmpty then []
  else [⟨main.elim Position.first fun (decl, _) => decl.position, .missingMain⟩]

/-- Fills in the types of a program's classes. -/
def build (hierarchy : Hierarchy) (program : Program) (types : ClassTypes) : Reported Hierarchy :=
  let typed := program.typed types
  let (linked, badParents) := reportEach linkParent hierarchy.defineBuiltins typed
  let (acyclic, cycles) := reportEach breakCycle linked typed
  let (defined, badFeatures) := reportEach defineFeatures acyclic typed
  (defined, badParents ++ cycles ++ badFeatures ++
    typed.flatMap (fun (_, type) => defined.overrides type) ++ defined.missingMain typed)

end Hierarchy

end CoolLang
