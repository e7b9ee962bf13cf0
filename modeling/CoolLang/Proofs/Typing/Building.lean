import CoolLang.Analysis.Basic
import CoolLang.Proofs.Hierarchy.Validity
import CoolLang.Proofs.Scope.Classes
import CoolLang.Proofs.Typing.Invariant
import CoolLang.Proofs.Typing.Task

/-!
What typing puts into the tree that it builds. Every variable has a type that the hierarchy knows, and
every expression has one that means the same in all classes (`Typing.builds`).
-/

namespace CoolLang

/-- Whether all variables have types that are known, and scopes have variables that exist. -/
structure ScopeTree.Known (size : Nat) (tree : ScopeTree) : Prop where
  vars : ∀ info ∈ tree.vars, info.type.index < size
  locals : ∀ scope, ∀ id ∈ tree.locals scope, id < tree.vars.size

namespace ScopeTree.Known

variable {tree : ScopeTree} {size : Nat}

/-- A number that no variable has stands for a known type, too. -/
theorem variableAt (known : tree.Known size) (enough : 0 < size) (id : VariableId) :
    (tree.variableAt id).type.index < size := by
  unfold ScopeTree.variableAt
  cases isKnown : tree.vars[id]? with
  | none => exact enough
  | some info => exact known.vars info (Array.mem_of_getElem? isKnown)

theorem createChild (known : tree.Known size) (parent : ScopeId) :
    (tree.createChild parent).2.Known size := by
  refine ⟨known.vars, fun scope id member => ?_⟩
  have fewer : id ∈ tree.locals scope := by
    unfold ScopeTree.locals node at member ⊢
    simp only [ScopeTree.createChild, Array.getElem?_modify, Array.getElem?_push] at member
    by_cases isNew : scope = tree.nodes.size
    · subst isNew
      rw [if_pos rfl] at member
      split at member <;> cases member
    · rw [if_neg isNew] at member
      cases isNode : tree.nodes[scope]? <;> rw [isNode] at member <;> split at member <;> exact member
  exact known.locals scope id fewer

theorem define (known : tree.Known size) (scope : ScopeId) {info : Variable}
    (isKnown : info.type.index < size) : (tree.define scope info).2.Known size := by
  have more : (tree.define scope info).2.vars.size = tree.vars.size + 1 := Array.size_push ..
  refine ⟨fun other member => ?_, fun other id member => ?_⟩
  · rcases Array.mem_push.mp member with old | rfl
    · exact known.vars other old
    · exact isKnown
  · rw [more]
    rw [ScopeTree.locals, node_define] at member
    split at member
    · rw [Array.toList_push, List.mem_append, List.mem_singleton] at member
      rcases member with old | rfl
      · exact Nat.lt_succ_of_lt (known.locals other id old)
      · exact Nat.lt_succ_self _
    · exact Nat.lt_succ_of_lt (known.locals other id member)

end ScopeTree.Known

namespace Typing

/-- A state in which the tree is being built. -/
structure Building (size : Nat) (state : TypingState) : Prop where
  building : state.cursor = none
  known : state.tree.Known size

/-- What typing puts into a tree is known, and no type of an expression depends on a class. -/
theorem builds {hierarchy : Hierarchy} (rooted : hierarchy.Rooted) (valid : hierarchy.Valid False) :
    Invariant hierarchy (TypeId.Absolute hierarchy.types.size) (fun type => type.index < hierarchy.types.size)
      (Building hierarchy.types.size) where
  found _ _ ready := ⟨ready.building, ready.known⟩
  openScope state scope ready := by
    rw [openScope_of_building ready.building]
    exact ⟨ready.building, ready.known.createChild scope⟩
  closeScope state ready := by
    rw [closeScope_of_building ready.building]
    exact ready
  declare state scope place info ready isKnown := by
    rw [declare_of_building place info ready.building]
    exact ⟨ready.building, ready.known.define scope isKnown⟩
  slot state id current ready isClass := isClass.resolveIn
    (ready.known.variableAt rooted.positive id)
  gives := Hierarchy.gives_absolute rooted valid
  auto := Nat.lt_of_lt_of_le (by decide) rooted.builtins
  weaken _ absolute := absolute.known
  written _ _ found := (Hierarchy.find?_known found).1

end Typing

end CoolLang
