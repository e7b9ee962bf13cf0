import CoolLang.Grammar.Draft
import CoolLang.Grammar.Follow
import CoolLang.ShiftReduce.ParseTree
import CoolLang.Token.Scan
import CoolLang.Program.Parser
import CoolLang.Program.Relocation
import CoolLang.Program.Rendering
import CoolLang.Hierarchy.Classes
import CoolLang.Scope.Cursor
import CoolLang.Typing.Check
import CoolLang.Inference.Rounds
import CoolLang.Analysis.Compile
import CoolLang.CommandLine.Directory
import CoolLang.Main
import CoolLang.Proofs.Grammar.Beginning
import CoolLang.Proofs.Grammar.Declared
import CoolLang.Proofs.Grammar.First
import CoolLang.Proofs.Automaton.Closure
import CoolLang.Proofs.Automaton.Exploration
import CoolLang.Proofs.Automaton.ValidItem
import CoolLang.Proofs.Automaton.Prescription
import CoolLang.Proofs.ShiftReduce.ParseTree
import CoolLang.Proofs.ShiftReduce.Moves
import CoolLang.Proofs.ShiftReduce.Soundness
import CoolLang.Proofs.ShiftReduce.Guidance
import CoolLang.Proofs.ShiftReduce.Progress
import CoolLang.Proofs.ShiftReduce.Reduction
import CoolLang.Proofs.ShiftReduce.StepBound
import CoolLang.Proofs.ShiftReduce.Completeness
import CoolLang.Proofs.ShiftReduce.ErrorDetection
import CoolLang.Proofs.Automaton.ViablePrefix
import CoolLang.Proofs.ShiftReduce.StackSafety
import CoolLang.Proofs.ShiftReduce.StatefulReplay
import CoolLang.Proofs.ShiftReduce.Lockstep
import CoolLang.Automaton.Registration
import CoolLang.Proofs.Automaton.Row
import CoolLang.Proofs.Automaton.Registration
import CoolLang.Proofs.Automaton.Cells
import CoolLang.Grammar.Rounds
import CoolLang.Proofs.Grammar.Rounds
import CoolLang.Proofs.Grammar.FirstDerives
import CoolLang.Proofs.Grammar.Follow
import CoolLang.Proofs.Automaton.Company
import CoolLang.Proofs.Automaton.CompanyCheck
import CoolLang.Proofs.Program.Table
import CoolLang.Proofs.ShiftReduce.Evaluation
import CoolLang.Proofs.Program.Variant
import CoolLang.Proofs.Program.Outcome
import CoolLang.Proofs.Program.Layout
import CoolLang.Proofs.Program.RoundTrip
import CoolLang.Proofs.Text.Literal
import CoolLang.Source.LineIndex
import CoolLang.Token.Comment
import CoolLang.Token.Pattern
import CoolLang.Proofs.Token.Comment
import CoolLang.Proofs.Token.Longest
import CoolLang.Proofs.Source.LineIndex
import CoolLang.Proofs.Token.Scan
import CoolLang.Program.Nesting
import CoolLang.Program.Notes
import CoolLang.Proofs.Inference.Run
import CoolLang.Proofs.Program.Notes
import CoolLang.Proofs.Scope.Growth
import CoolLang.Proofs.Scope.Traversal
import CoolLang.Proofs.Typing.Task
import CoolLang.Proofs.Analysis.ScopeOrder
import CoolLang.Proofs.Hierarchy.Ancestry
import CoolLang.Proofs.Hierarchy.Consistency
import CoolLang.Proofs.Hierarchy.Build
import CoolLang.Proofs.Inference.Learning
import CoolLang.Proofs.Analysis.Resolution
import CoolLang.Proofs.Inference.Fixpoint
import CoolLang.Proofs.Analysis.Stability
import CoolLang.Proofs.Hierarchy.Rooted
import CoolLang.Proofs.Hierarchy.Bare
import CoolLang.Proofs.Hierarchy.Linking
import CoolLang.Proofs.Hierarchy.Validity
import CoolLang.Proofs.Hierarchy.Distinct
import CoolLang.Proofs.Inference.Invariant
import CoolLang.Proofs.Typing.Invariant
import CoolLang.Typing.Survey
import CoolLang.Proofs.Typing.Declarations
import CoolLang.Proofs.Scope.Sight
import CoolLang.Proofs.Scope.Opening
import CoolLang.Proofs.Scope.Classes
import CoolLang.Proofs.Typing.Building
import CoolLang.Proofs.Analysis.Checked
import CoolLang.Proofs.Inference.Advance
import CoolLang.Proofs.Inference.Progress
import CoolLang.Proofs.Inference.Ascent
import CoolLang.Proofs.Analysis.Convergence
import CoolLang.Proofs.Typing.Survey
import CoolLang.Proofs.Typing.Classes
import CoolLang.Proofs.Hierarchy.Cycles
import CoolLang.Proofs.Hierarchy.Tree
import CoolLang.Proofs.Hierarchy.Signatures
import CoolLang.Proofs.Hierarchy.Overriding
import CoolLang.Proofs.Program.Shape
import CoolLang.Proofs.Inference.Visits
import CoolLang.Proofs.Inference.Frame
import CoolLang.Proofs.Typing.Independence
import CoolLang.Proofs.Typing.Explicit
import CoolLang.Proofs.Analysis.Pairing
import CoolLang.Proofs.Analysis.Frame
import CoolLang.Proofs.Analysis.Overriding
import CoolLang.Proofs.Inference.Agreement
import CoolLang.Proofs.Inference.Rest
import CoolLang.Proofs.Inference.Records
import CoolLang.Proofs.Analysis.Rest
import CoolLang.Proofs.Hierarchy.Conformance
import CoolLang.Proofs.Hierarchy.Introduction
import CoolLang.Proofs.Typing.Rules
import CoolLang.Proofs.Typing.Soundness
import CoolLang.Proofs.Analysis.Settling
import CoolLang.Proofs.Analysis.WellTyped
import CoolLang.Analysis.Transport
import CoolLang.Proofs.Hierarchy.Relocation
import CoolLang.Proofs.Typing.Relocation
import CoolLang.Proofs.Inference.Relocation
import CoolLang.Proofs.Analysis.Layout
import CoolLang.Proofs.Hierarchy.Renaming
import CoolLang.Proofs.Hierarchy.Collecting
import CoolLang.Proofs.Hierarchy.Order
import CoolLang.Proofs.Typing.Correspondence
import CoolLang.Proofs.Analysis.Order
import CoolLang.Proofs.Grammar.Definition
import CoolLang.Proofs.Automaton.Collection
import CoolLang.Proofs.Hierarchy.Lattice
import CoolLang.Proofs.Automaton.Lookaheads
import CoolLang.Proofs.Analysis.Replay
import CoolLang.Proofs.Analysis.Lexical
import CoolLang.Analysis.Annotated
import CoolLang.Proofs.Hierarchy.Heads
import CoolLang.Proofs.Analysis.Annotated
import CoolLang.Proofs.Analysis.Verification
import CoolLang.Program.Parts
import CoolLang.Program.Chain
import CoolLang.Proofs.Token.Respacing
import CoolLang.Proofs.Program.Parts
import CoolLang.Proofs.Program.Literals
import CoolLang.Proofs.Program.Surrounding
import CoolLang.Proofs.Program.Chain
import CoolLang.Scope.Trail
import CoolLang.Proofs.Scope.Preorder
import CoolLang.Proofs.Scope.Trail
import CoolLang.Hierarchy.Registry
import CoolLang.Proofs.Hierarchy.Registry
import CoolLang.Proofs.Analysis.Absorption
import CoolLang.Proofs.Grammar.Growth
import CoolLang.Proofs.Hierarchy.Observation
