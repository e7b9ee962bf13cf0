import CoolLang.Hierarchy.Variable
import CoolLang.Source.Diagnostic

/-!
The class hierarchy: every type with its parent, its attributes and the signatures of its methods. A
type conforms to another if that is among its ancestors, and the union of two types is their nearest
common ancestor. No two types have the same name, the error type aside, which has none to find it by.
-/

namespace CoolLang

structure Attribute where
  name : String
  type : TypeId
  position : Position
deriving DecidableEq, Inhabited

structure Method where
  name : String
  params : List Variable
  result : Variable
  position : Position
deriving DecidableEq, Inhabited

namespace Method

/-- The signature of a method as it is written; the result goes by the method's name. -/
def declared (name : String) (params : List (String × TypeId)) (result : TypeId)
    (position : Position) : Method where
  name := name
  params := params.map fun (name, type) => Variable.declared name type
  result := Variable.declared name result
  position := position

end Method

structure TypeInfo where
  name : String
  parent : Option TypeId
  /-- In the order of definition. -/
  attributes : List Attribute
  /-- In the order of definition; no two have the same name. -/
  methods : List Method
  /-- Whether no class can inherit from it. -/
  isSealed : Bool
deriving DecidableEq, Inhabited

namespace TypeInfo

/-- A type of which only the name is known. -/
def named (name : String) : TypeInfo :=
  ⟨name, none, [], [], false⟩

def attribute? (info : TypeInfo) (name : String) : Option Attribute :=
  info.attributes.find? fun attr => attr.name == name

def method? (info : TypeInfo) (name : String) : Option Method :=
  info.methods.find? fun method => method.name == name

/-- The attribute of that name if it is the one declared at that position. -/
def attributeAt? (info : TypeInfo) (name : String) (position : Position) : Option Attribute :=
  info.attributes.find? fun attr => attr.name == name && attr.position == position

/-- The method of that name if it is the one declared at that position. -/
def methodAt? (info : TypeInfo) (name : String) (position : Position) : Option Method :=
  (info.method? name).filter fun method => method.position == position

/-- Changes the method of that name. -/
def updateMethod (info : TypeInfo) (name : String) (change : Method → Method) : TypeInfo :=
  { info with methods := info.methods.map fun method =>
      if method.name = name then change method else method }

/-- Puts a method in the place of the one of its name, or else at the end. -/
def putMethod (info : TypeInfo) (method : Method) : TypeInfo :=
  if (info.method? method.name).isSome then info.updateMethod method.name fun _ => method
  else { info with methods := info.methods ++ [method] }

end TypeInfo

inductive HierarchyError where
  | duplicateType (name : String)
  | unknownType (name : String)
  | duplicateAttribute (name owner : String)
  | duplicateMethod (name owner : String)
deriving DecidableEq

namespace HierarchyError

def message : HierarchyError → String
  | duplicateType name => "type `" ++ name ++ "` is already defined"
  | unknownType name => "type `" ++ name ++ "` is not defined"
  | duplicateAttribute name owner =>
      "attribute `" ++ name ++ "` is already defined in `" ++ owner ++ "`"
  | duplicateMethod name owner =>
      "method `" ++ name ++ "` is already defined in `" ++ owner ++ "`"

/-- What a program is blamed for that leads to the error. -/
def problem : HierarchyError → Problem
  | duplicateType name => .duplicateType name
  | unknownType name => .unknownType name
  | duplicateAttribute name owner => .duplicateAttribute name owner
  | duplicateMethod name owner => .duplicateMethod name owner

end HierarchyError

/-- All types, by number. -/
structure Hierarchy where
  types : Array TypeInfo
deriving DecidableEq, Inhabited

namespace Hierarchy

/-- The sentinels and the built-in classes, these without their methods. -/
def initial : Hierarchy where
  types := #[
    .named "SELF_TYPE",
    .named "AUTO_TYPE",
    .named "<error>",
    .named "Object",
    { TypeInfo.named "IO" with parent := some TypeId.object },
    { TypeInfo.named "Int" with parent := some TypeId.object, isSealed := true },
    { TypeInfo.named "String" with parent := some TypeId.object, isSealed := true },
    { TypeInfo.named "Bool" with parent := some TypeId.object, isSealed := true }]

/-- What is known about a type; nothing about a number that no type has. -/
def info (hierarchy : Hierarchy) (type : TypeId) : TypeInfo :=
  hierarchy.types[type.index]?.getD default

def name (hierarchy : Hierarchy) (type : TypeId) : String :=
  (hierarchy.info type).name

def parent? (hierarchy : Hierarchy) (type : TypeId) : Option TypeId :=
  (hierarchy.info type).parent

def update (hierarchy : Hierarchy) (type : TypeId) (change : TypeInfo → TypeInfo) : Hierarchy :=
  ⟨hierarchy.types.modify type.index change⟩

def ids (hierarchy : Hierarchy) : List TypeId :=
  (List.range hierarchy.types.size).map TypeId.mk

/-- The types that are not sentinels, in order. -/
def concreteIds (hierarchy : Hierarchy) : List TypeId :=
  hierarchy.ids.filter TypeId.isConcrete

/-- The type of that name. -/
def find? (hierarchy : Hierarchy) (name : String) : Option TypeId :=
  hierarchy.ids.find? fun type => type != TypeId.error && hierarchy.name type == name

def get (hierarchy : Hierarchy) (name : String) : Except HierarchyError TypeId :=
  match hierarchy.find? name with
  | some type => .ok type
  | none => .error (.unknownType name)

/-- Adds a type under a name that no type has. -/
def create (hierarchy : Hierarchy) (name : String) :
    Except HierarchyError (TypeId × Hierarchy) :=
  match hierarchy.find? name with
  | some _ => .error (.duplicateType name)
  | none => .ok (⟨hierarchy.types.size⟩, ⟨hierarchy.types.push (.named name)⟩)

def setParent (hierarchy : Hierarchy) (type parent : TypeId) : Hierarchy :=
  hierarchy.update type fun info => { info with parent := some parent }

/-- The first `count` types of the line from a type upward. -/
def line (hierarchy : Hierarchy) : Nat → Option TypeId → List TypeId
  | 0, _ => []
  | _, none => []
  | count + 1, some type => type :: line hierarchy count (hierarchy.parent? type)

/-- A type followed by its ancestors. The line is cut at as many types as there are, so it ends even
where parents form a cycle. -/
def ancestors (hierarchy : Hierarchy) (type : TypeId) : List TypeId :=
  hierarchy.line hierarchy.types.size (some type)

/-- Whether a type can stand where another is expected. -/
def conforms (hierarchy : Hierarchy) (type expected : TypeId) : Bool :=
  !type.isChecked || !expected.isChecked || (hierarchy.ancestors type).contains expected

/-- The nearest common ancestor of two types. A type that conformance says nothing about gives way to
the other one. -/
def union (hierarchy : Hierarchy) (left right : TypeId) : TypeId :=
  if !left.isChecked then right
  else if !right.isChecked || left == right then left
  else ((hierarchy.ancestors right).find? (hierarchy.ancestors left).contains).getD TypeId.object

/-- The attribute of that name in a type or else in its nearest ancestor that has one, with the owner. -/
def attribute? (hierarchy : Hierarchy) (type : TypeId) (name : String) :
    Option (TypeId × Attribute) :=
  (hierarchy.ancestors type).findSome? fun owner =>
    ((hierarchy.info owner).attribute? name).map fun attr => (owner, attr)

/-- The method of that name in a type or else in its nearest ancestor that has one, with the owner. -/
def method? (hierarchy : Hierarchy) (type : TypeId) (name : String) : Option (TypeId × Method) :=
  (hierarchy.ancestors type).findSome? fun owner =>
    ((hierarchy.info owner).method? name).map fun method => (owner, method)

def defineAttribute (hierarchy : Hierarchy) (type : TypeId) (attr : Attribute) :
    Except HierarchyError Hierarchy :=
  let owner := hierarchy.info type
  match owner.attribute? attr.name with
  | some _ => .error (.duplicateAttribute attr.name owner.name)
  | none => .ok (hierarchy.update type fun info =>
      { info with attributes := info.attributes ++ [attr] })

def defineMethod (hierarchy : Hierarchy) (type : TypeId) (method : Method) :
    Except HierarchyError Hierarchy :=
  let owner := hierarchy.info type
  match owner.method? method.name with
  | some _ => .error (.duplicateMethod method.name owner.name)
  | none => .ok (hierarchy.update type fun info => info.putMethod method)

/-- The methods of the built-in classes. -/
def builtinMethods : List (TypeId × Method) :=
  let method (owner : TypeId) (name : String) (params : List (String × TypeId)) (result : TypeId) :=
    (owner, Method.declared name params result Position.builtin)
  [method .object "abort" [] .object,
   method .object "type_name" [] .string,
   method .object "copy" [] .selfType,
   method .io "out_string" [("x", .string)] .selfType,
   method .io "out_int" [("x", .int)] .selfType,
   method .io "in_string" [] .string,
   method .io "in_int" [] .int,
   method .string "length" [] .int,
   method .string "concat" [("s", .string)] .string,
   method .string "substr" [("i", .int), ("l", .int)] .string]

/-- Gives the built-in classes their methods, in place of any of the same names. -/
def defineBuiltins (hierarchy : Hierarchy) : Hierarchy :=
  builtinMethods.foldl
    (fun current (owner, method) => current.update owner fun info => info.putMethod method) hierarchy

def methodText (hierarchy : Hierarchy) (method : Method) : String :=
  let params := method.params.map fun param => param.name ++ ": " ++ hierarchy.name param.type
  "    method " ++ method.name ++ "(" ++ ", ".intercalate params ++ ") : " ++
    hierarchy.name method.result.type ++ ";\n"

def typeListing (hierarchy : Hierarchy) (type : TypeId) : String :=
  let info := hierarchy.info type
  let parent := info.parent.elim "" fun parent => " : " ++ hierarchy.name parent
  let attributes := info.attributes.map fun attr =>
    "    attribute " ++ attr.name ++ " : " ++ hierarchy.name attr.type ++ ";\n"
  "type " ++ info.name ++ parent ++ " \x7b\n" ++ String.join attributes ++
    String.join (info.methods.map hierarchy.methodText) ++ "\x7d\n"

/-- The listings of all classes, with an empty line between two of them. -/
def listing (hierarchy : Hierarchy) : String :=
  "\n".intercalate (hierarchy.concreteIds.map hierarchy.typeListing)

end Hierarchy

end CoolLang
