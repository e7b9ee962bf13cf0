import CoolLang.Hierarchy.Basic
import CoolLang.Keyed

/-!
The registry of all types, changed in place. It keeps the types by number and beside them the numbers by name, and each
type keeps its methods by name. An operation first looks for what it is refused for, and then changes one after the
other; one that is refused leaves what has been changed before. `Registry.performAll` performs operations in order, goes
on after a refused one, and keeps the answers. What the registry comes to as a whole is `Registry.hierarchy`.
-/

namespace CoolLang

/-- A method with the names of its parameters, which the parameters have as well. -/
structure StoredMethod where
  name : String
  paramNames : List String
  params : List Variable
  result : Variable
  position : Position
deriving DecidableEq

namespace StoredMethod

def declared (name : String) (params : List (String × TypeId)) (result : TypeId)
    (position : Position) : StoredMethod where
  name := name
  paramNames := params.map Prod.fst
  params := params.map fun (name, type) => Variable.declared name type
  result := Variable.declared name result
  position := position

/-- A method as it is kept. -/
def ofMethod (method : Method) : StoredMethod where
  name := method.name
  paramNames := method.params.map Variable.name
  params := method.params
  result := method.result
  position := method.position

/-- The result and the parameters. -/
def infos (method : StoredMethod) : List Variable :=
  method.result :: method.params

def toMethod (method : StoredMethod) : Method where
  name := method.name
  params := method.params
  result := method.result
  position := method.position

end StoredMethod

structure StoredType where
  name : String
  parent : Option TypeId
  attributes : List Attribute
  methods : Keyed String StoredMethod
  isSealed : Bool
deriving DecidableEq, Inhabited

namespace StoredType

def named (name : String) : StoredType :=
  ⟨name, none, [], [], false⟩

def toInfo (stored : StoredType) : TypeInfo where
  name := stored.name
  parent := stored.parent
  attributes := stored.attributes
  methods := stored.methods.map fun entry => entry.2.toMethod
  isSealed := stored.isSealed

end StoredType

structure Registry where
  /-- By number. -/
  types : Array StoredType
  names : Keyed String TypeId
deriving DecidableEq

/-- Operations on a registry. One that is refused leaves the changes that were made before. -/
abbrev Registering (α : Type) := ExceptT HierarchyError (StateM Registry) α

namespace Registry

/-- What is kept of a type; nothing of a number that no type has. -/
def type (registry : Registry) (id : TypeId) : StoredType :=
  registry.types[id.index]?.getD default

def name (registry : Registry) (id : TypeId) : String :=
  (registry.type id).name

def update (registry : Registry) (id : TypeId) (change : StoredType → StoredType) : Registry :=
  { registry with types := registry.types.modify id.index change }

/-- Adds a type, under its name if it is one to be found by. -/
def add (registry : Registry) (name : String) (isFound : Bool) : Registry where
  types := registry.types.push (.named name)
  names := if isFound then registry.names.insert name ⟨registry.types.size⟩ else registry.names

/-- The sentinels and the built-in classes, these without their methods. -/
def initial : Registry :=
  let added := [("SELF_TYPE", true), ("AUTO_TYPE", true), ("<error>", false), ("Object", true), ("IO", true),
    ("Int", true), ("String", true), ("Bool", true)].foldl (fun registry (name, isFound) => registry.add name isFound)
    ⟨#[], []⟩
  let linked := [TypeId.io, .int, .string, .bool].foldl
    (fun registry id => registry.update id fun stored => { stored with parent := some TypeId.object }) added
  [TypeId.int, .string, .bool].foldl
    (fun registry id => registry.update id fun stored => { stored with isSealed := true }) linked

def getType (registry : Registry) (name : String) : Except HierarchyError TypeId :=
  match registry.names.lookup name with
  | some id => .ok id
  | none => .error (.unknownType name)

def hierarchy (registry : Registry) : Hierarchy :=
  ⟨registry.types.map StoredType.toInfo⟩

def createType (name : String) : Registering TypeId := do
  if ((← get).names.lookup name).isSome then throw (.duplicateType name)
  let id : TypeId := ⟨(← get).types.size⟩
  modify fun registry => { registry with types := registry.types.push (.named name) }
  modify fun registry => { registry with names := registry.names.insert name id }
  return id

def setParent (id parent : TypeId) : Registering Unit :=
  modify fun registry => registry.update id fun stored => { stored with parent := some parent }

/-- Gives the built-in classes their methods, in place of any of the same names. -/
def defineBuiltins : Registering Unit :=
  Hierarchy.builtinMethods.forM fun (owner, method) => modify fun registry =>
    registry.update owner fun stored =>
      { stored with methods := stored.methods.insert method.name (.ofMethod method) }

def defineAttribute (id : TypeId) (attr : Attribute) : Registering Unit := do
  let owner := (← get).type id
  if owner.attributes.any fun other => other.name == attr.name then
    throw (.duplicateAttribute attr.name owner.name)
  modify fun registry => registry.update id fun stored =>
    { stored with attributes := stored.attributes ++ [attr] }

def defineMethod (id : TypeId) (name : String) (params : List (String × TypeId)) (result : TypeId)
    (position : Position) : Registering Unit := do
  let owner := (← get).type id
  if (owner.methods.lookup name).isSome then throw (.duplicateMethod name owner.name)
  modify fun registry => registry.update id fun stored =>
    { stored with methods := stored.methods.insert name (.declared name params result position) }

inductive Operation where
  | createType (name : String)
  | setParent (id parent : TypeId)
  | defineBuiltins
  | defineAttribute (id : TypeId) (attr : Attribute)
  | defineMethod (id : TypeId) (name : String) (params : List (String × TypeId)) (result : TypeId)
      (position : Position)

/-- Performs one operation. It is answered with the number of the type that it creates, if it creates one. -/
def perform : Operation → Registering (Option TypeId)
  | .createType name => return some (← createType name)
  | .setParent id parent => do
      setParent id parent
      return none
  | .defineBuiltins => do
      defineBuiltins
      return none
  | .defineAttribute id attr => do
      defineAttribute id attr
      return none
  | .defineMethod id name params result position => do
      defineMethod id name params result position
      return none

/-- What an operation is answered with: the number of a new type, if any, or why it is refused. -/
abbrev Answer := Except HierarchyError (Option TypeId)

/-- Performs operations in order, the refused ones too, and keeps the answers. -/
def performAll : List Operation → StateM Registry (List Answer)
  | [] => return []
  | operation :: operations => do
      let answer ← (perform operation).run
      let answers ← performAll operations
      return answer :: answers

/-- The number of the type that an answer says was created. -/
def created? : Answer → Option TypeId
  | .ok id? => id?
  | .error _ => none

/-- The numbers of the types that were created, in order. -/
def created (answers : List Answer) : List TypeId :=
  answers.filterMap created?

/-- The operation on a hierarchy as a whole. -/
def Operation.apply (hierarchy : Hierarchy) : Operation → Except HierarchyError (Option TypeId × Hierarchy)
  | .createType name => (hierarchy.create name).map fun (id, next) => (some id, next)
  | .setParent id parent => .ok (none, hierarchy.setParent id parent)
  | .defineBuiltins => .ok (none, hierarchy.defineBuiltins)
  | .defineAttribute id attr => (hierarchy.defineAttribute id attr).map fun next => (none, next)
  | .defineMethod id name params result position =>
      (hierarchy.defineMethod id (.declared name params result position)).map fun next => (none, next)

/-- A hierarchy after an operation, which a refused one leaves as it is. -/
def Operation.applyOrSkip (hierarchy : Hierarchy) (operation : Operation) : Hierarchy :=
  match operation.apply hierarchy with
  | .ok (_, next) => next
  | .error _ => hierarchy

end Registry

end CoolLang
