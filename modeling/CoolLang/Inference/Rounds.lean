import CoolLang.Inference.Walk

/-!
Inference: walks until one learns nothing, then gives every declaration that is still open the type
`Object`, and walks again for what follows from that.
-/

namespace CoolLang

namespace Method

/-- Gives the open parameters and an open result the type `Object`. -/
def settleOpen (method : Method) : Method :=
  { method with params := method.params.map Variable.settleOpen, result := method.result.settleOpen }

end Method

namespace Attribute

/-- Gives an attribute yet to be inferred the type `Object`. -/
def settleOpen (attr : Attribute) : Attribute :=
  if attr.type = .autoType then { attr with type := .object } else attr

end Attribute

namespace Hierarchy

/-- Gives every open declaration in the signatures of the classes the type `Object`. -/
def settleOpen (hierarchy : Hierarchy) : Hierarchy :=
  hierarchy.concreteIds.foldl
    (fun current type => current.update type fun info =>
      { info with
        attributes := info.attributes.map Attribute.settleOpen
        methods := info.methods.map Method.settleOpen })
    hierarchy

end Hierarchy

namespace Inference

/-- Gives every declaration that is still open the type `Object`. -/
def settleOpen : Inference Unit :=
  advance fun state =>
    { state with
      hierarchy := state.hierarchy.settleOpen
      tree := state.tree.mapVariables Variable.settleOpen }

/-- Walks once, and then again as long as the last walk has learned something, at most `more` times.
Returns the number of walks, too. -/
def walkUntilStable (types : ClassTypes) : Nat → Program → Inference (Program × Nat)
  | 0, program => do
      let program ← walk types program
      return (program, 1)
  | more + 1, program => do
      let program ← walk types program
      let state ← get
      if state.changed && state.drift.isNone then
        let (program, walks) ← walkUntilStable types more program
        return (program, walks + 1)
      else
        return (program, 1)

/-- Both phases, each of `limit` walks at most, but of one at least. -/
def bothPhases (types : ClassTypes) (limit : Nat) (program : Program) : Inference (Program × Nat) := do
  let (program, observing) ← walkUntilStable types (limit - 1) program
  settleOpen
  let (program, following) ← walkUntilStable types (limit - 1) program
  return (program, observing + following)

end Inference

/-- What inference leaves: the number of walks, or how a walk and the scope tree differed. -/
structure Inferred where
  program : Program
  hierarchy : Hierarchy
  tree : ScopeTree
  walks : Except ScopeDrift Nat

namespace Program

/-- Infers the types of a typed program's open declarations. -/
def infer (program : Program) (types : ClassTypes) (hierarchy : Hierarchy) (tree : ScopeTree)
    (limit : Nat) : Inferred :=
  let ((program, walks), state) := (Inference.bothPhases types limit program).run
    ⟨hierarchy, tree, .initial, false, none⟩
  ⟨program, state.hierarchy, state.tree,
    match state.drift with
    | some drift => .error drift
    | none => .ok walks⟩

end Program

end CoolLang
