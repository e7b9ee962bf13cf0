import CoolLang.Hierarchy.Basic

/-!
The tree of lexical scopes. Scopes and variables are numbered as they are created; scope 0 is the root.
One variable can be local to several scopes, as an inherited attribute is. Every scope but the root has
a parent of a smaller number, and knows its place among the parent's children.
-/

namespace CoolLang

abbrev ScopeId := Nat

abbrev VariableId := Nat

structure ScopeNode where
  parent : Option ScopeId
  /-- In the order of creation. -/
  children : Array ScopeId
  /-- In the order in which they were made visible. -/
  locals : Array VariableId
  /-- The place among the parent's children. -/
  index : Nat
deriving DecidableEq, Inhabited

structure ScopeTree where
  nodes : Array ScopeNode
  /-- By number. -/
  vars : Array Variable
deriving DecidableEq, Inhabited

namespace ScopeTree

def root : ScopeId := 0

/-- A tree of just the root. -/
def initial : ScopeTree :=
  ⟨#[⟨none, #[], #[], 0⟩], #[]⟩

def node (tree : ScopeTree) (scope : ScopeId) : ScopeNode :=
  tree.nodes[scope]?.getD default

def children (tree : ScopeTree) (scope : ScopeId) : List ScopeId :=
  (tree.node scope).children.toList

def locals (tree : ScopeTree) (scope : ScopeId) : List VariableId :=
  (tree.node scope).locals.toList

def parent? (tree : ScopeTree) (scope : ScopeId) : Option ScopeId :=
  (tree.node scope).parent

def index (tree : ScopeTree) (scope : ScopeId) : Nat :=
  (tree.node scope).index

def variableAt (tree : ScopeTree) (id : VariableId) : Variable :=
  tree.vars[id]?.getD default

/-- Adds a scope as the last child of another. -/
def createChild (tree : ScopeTree) (parent : ScopeId) : ScopeId × ScopeTree :=
  let scope := tree.nodes.size
  let node : ScopeNode := ⟨some parent, #[], #[], (tree.node parent).children.size⟩
  (scope, { tree with
    nodes := (tree.nodes.push node).modify parent fun node =>
      { node with children := node.children.push scope } })

/-- Adds a variable that is visible nowhere yet. -/
def allocate (tree : ScopeTree) (info : Variable) : VariableId × ScopeTree :=
  (tree.vars.size, { tree with vars := tree.vars.push info })

/-- Makes a variable local to a scope. -/
def attach (tree : ScopeTree) (scope : ScopeId) (id : VariableId) : ScopeTree :=
  { tree with nodes := tree.nodes.modify scope fun node =>
      { node with locals := node.locals.push id } }

/-- Adds a variable as the last local of a scope. -/
def define (tree : ScopeTree) (scope : ScopeId) (info : Variable) : VariableId × ScopeTree :=
  let (id, tree) := tree.allocate info
  (id, tree.attach scope id)

def setVariable (tree : ScopeTree) (id : VariableId) (info : Variable) : ScopeTree :=
  { tree with vars := tree.vars.modify id fun _ => info }

def mapVariables (tree : ScopeTree) (change : Variable → Variable) : ScopeTree :=
  { tree with vars := tree.vars.map change }

/-- The local of that name, the first of several. -/
def local? (tree : ScopeTree) (scope : ScopeId) (name : String) : Option VariableId :=
  (tree.locals scope).find? fun id => (tree.variableAt id).name == name

/-- The first `count` scopes from a scope outward. -/
def outward (tree : ScopeTree) : Nat → Option ScopeId → List ScopeId
  | 0, _ => []
  | _, none => []
  | count + 1, some scope => scope :: outward tree count (tree.parent? scope)

/-- A scope followed by the scopes around it, up to the root. -/
def enclosing (tree : ScopeTree) (scope : ScopeId) : List ScopeId :=
  tree.outward tree.nodes.size (some scope)

/-- What a name means in a scope: the local of the innermost scope around it that has one. -/
def find? (tree : ScopeTree) (scope : ScopeId) (name : String) : Option VariableId :=
  (tree.enclosing scope).findSome? fun around => tree.local? around name

/-- A scope at some depth and all scopes inside it, parents before children and children in order,
down to `levels` levels. -/
def preorderFrom (tree : ScopeTree) : Nat → Nat → ScopeId → List (ScopeId × Nat)
  | 0, _, _ => []
  | levels + 1, depth, scope =>
      (scope, depth) ::
        (tree.children scope).flatMap fun child => tree.preorderFrom levels (depth + 1) child

/-- All scopes below the root with their depths, in pre-order. -/
def preorder (tree : ScopeTree) : List (ScopeId × Nat) :=
  tree.preorderFrom tree.nodes.size 0 root

def scopeText (scope : ScopeId) : String :=
  "#" ++ toString scope

def scopeListing (hierarchy : Hierarchy) (tree : ScopeTree) (scope : ScopeId) (depth : Nat) :
    String :=
  let indent := String.ofList (List.replicate (2 * depth) ' ')
  let lines := (tree.locals scope).map fun id =>
    let info := tree.variableAt id
    indent ++ "  " ++ info.name ++ ": " ++ hierarchy.name info.type ++ "\n"
  indent ++ "scope " ++ scopeText scope ++ "\n" ++ String.join lines

/-- Every scope with its locals, indented by its depth. -/
def listing (hierarchy : Hierarchy) (tree : ScopeTree) : String :=
  String.join (tree.preorder.map fun (scope, depth) => scopeListing hierarchy tree scope depth)

end ScopeTree

end CoolLang
