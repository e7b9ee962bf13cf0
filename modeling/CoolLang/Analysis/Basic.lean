import CoolLang.Inference.Rounds
import CoolLang.Typing.Check

/-!
What is known about a program, and the passes that add to it: collecting the classes, building the
hierarchy, checking, inferring, and verifying what was inferred. A pass takes the analysis as the passes
before it have left it and returns it with the diagnostics of its own.
-/

namespace CoolLang

structure Analysis where
  /-- With the static types found so far. -/
  program : Program
  types : ClassTypes
  hierarchy : Hierarchy
  tree : ScopeTree

namespace Analysis

/-- Nothing is known about a program but its text. -/
def ofProgram (program : Program) : Analysis :=
  ⟨program, [], .initial, .initial⟩

/-- Registers the names of the classes. -/
def collect (analysis : Analysis) : Reported Analysis :=
  let (hierarchy, types, found) := analysis.hierarchy.collect analysis.program
  ({ analysis with hierarchy := hierarchy, types := types }, found)

/-- Links the classes to their parents and registers their features. -/
def build (analysis : Analysis) : Reported Analysis :=
  let (hierarchy, found) := analysis.hierarchy.build analysis.program analysis.types
  ({ analysis with hierarchy := hierarchy }, found)

/-- Types every expression and builds the scope tree. -/
def check (analysis : Analysis) : Reported Analysis :=
  let (program, tree, found) := analysis.program.check analysis.types analysis.hierarchy
  ({ analysis with program := program, tree := tree }, found)

/-- What is known about a program once it has been checked. -/
def checked (program : Program) : Analysis :=
  (ofProgram program).collect.1.build.1.check.1

/-- Infers the types of open declarations in at most `limit` walks a phase. Returns the number of
walks, or how one differed from the scope tree. -/
def infer (limit : Nat) (analysis : Analysis) : Analysis × Except ScopeDrift Nat :=
  let inferred := analysis.program.infer analysis.types analysis.hierarchy analysis.tree limit
  ({ analysis with
      program := inferred.program
      hierarchy := inferred.hierarchy
      tree := inferred.tree },
    inferred.walks)

/-- Types every expression again with the types that have been inferred. -/
def verify (analysis : Analysis) : Reported Analysis × Except ScopeDrift Unit :=
  let (program, found, outcome) :=
    analysis.program.verify analysis.types analysis.hierarchy analysis.tree
  (({ analysis with program := program }, found), outcome)

end Analysis

end CoolLang
