import CoolLang.Hierarchy.TypeId

/-!
Variables: what is known about the type of a declaration. A declaration with a written type keeps it;
one written as `AUTO_TYPE`, or left out, is open until the first concrete type is observed for it. An
observation also says whether it has changed the variable, and it says so by the rule that it has followed,
not by comparing before and after (`Variable.observe`).
-/

namespace CoolLang

/-- The type of a variable, a parameter or a result. -/
structure Variable where
  name : String
  type : TypeId
  /-- Whether the type is to be inferred. -/
  auto : Bool
  /-- Whether a type has been observed for it. -/
  inferred : Bool
deriving DecidableEq, Inhabited

namespace Variable

/-- A declaration as it is written. -/
def declared (name : String) (type : TypeId) : Variable :=
  ⟨name, type, type == TypeId.autoType, false⟩

def isOpen (info : Variable) : Bool :=
  info.auto && !info.inferred

/-- Fixes the type of an open variable. -/
def settle (info : Variable) (type : TypeId) : Variable :=
  { info with type := type, inferred := true }

/-- Observes a type that a use of the variable expects; only an open variable takes it. -/
def observeHint (info : Variable) (type : TypeId) : Variable :=
  if info.isOpen && type.isConcrete then info.settle type else info

/-- Observes the type of a value that flows into the variable. The first one fixes its type, and each
later one widens it to `join` of both. -/
def observeValue (join : TypeId → TypeId → TypeId) (info : Variable) (type : TypeId) : Variable :=
  if !info.auto || !type.isConcrete then info
  else if info.inferred then { info with type := join info.type type }
  else info.settle type

/-- Takes over what another view of the same declaration has observed. -/
def merge (join : TypeId → TypeId → TypeId) (info other : Variable) : Variable :=
  if !other.inferred then info
  else if info.inferred then info.observeValue join other.type
  else info.settle other.type

/-- Gives an open variable the type `Object`. -/
def settleOpen (info : Variable) : Variable :=
  if info.isOpen then info.settle TypeId.object else info

end Variable

/-- What can be learned about the type of a variable. -/
inductive Observation where
  /-- A use of the variable expects a type. -/
  | hint (type : TypeId)
  /-- A value of a type flows into the variable. -/
  | value (type : TypeId)
  /-- Another view of the same declaration has observed something. -/
  | merge (other : Variable)

namespace Observation

/-- The class that an observation is about, if it is about one. -/
def class? : Observation → Option TypeId
  | hint type => type.expected?
  | value type => type.expected?
  | merge other => if other.inferred then some other.type else none

/-- The class that widens a variable which has a type already; a hint does not. -/
def widening? : Observation → Option TypeId
  | hint _ => none
  | observation => observation.class?

end Observation

namespace Variable

variable (join : TypeId → TypeId → TypeId)

/-- A variable after an observation. -/
def learn (info : Variable) : Observation → Variable
  | .hint type => info.observeHint type
  | .value type => info.observeValue join type
  | .merge other => info.merge join other

def reportHint (info : Variable) (type : TypeId) : Variable × Bool :=
  if !info.isOpen || !type.isConcrete then (info, false) else (info.settle type, true)

def reportValue (info : Variable) (type : TypeId) : Variable × Bool :=
  if !info.auto || !type.isConcrete then (info, false)
  else if !info.inferred then (info.settle type, true)
  else
    let joined := join info.type type
    ({ info with type := joined }, joined != info.type)

def reportMerge (info other : Variable) : Variable × Bool :=
  match info.inferred, other.inferred with
  | _, false => (info, false)
  | false, true => (info.settle other.type, true)
  | true, true => info.reportValue join other.type

/-- A variable after an observation, and whether the observation says that it has changed it. -/
def observe (info : Variable) : Observation → Variable × Bool
  | .hint type => info.reportHint type
  | .value type => info.reportValue join type
  | .merge other => info.reportMerge join other

/-- A variable after observations in order, and what each of them says. -/
def observeAll (info : Variable) : List Observation → Variable × List Bool
  | [] => (info, [])
  | observation :: observations =>
      let (next, changed) := info.observe join observation
      let (last, changes) := next.observeAll observations
      (last, changed :: changes)

end Variable

end CoolLang
