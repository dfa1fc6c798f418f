import LieScribe.Arithmetic
import LieScribe.Bindings
import LieScribe.Decimal.Layout
import LieScribe.Decimal.Shortest
import LieScribe.Evaluation
import LieScribe.Expr.Basic
import LieScribe.Expr.Equality
import LieScribe.Expr.Substitution
import LieScribe.Expr.WellFormed
import LieScribe.Fault
import LieScribe.FileTree.Access
import LieScribe.FileTree.Basic
import LieScribe.FileTree.Path
import LieScribe.FileTree.Refusal
import LieScribe.Group.Compiled
import LieScribe.Group.Definition
import LieScribe.Group.Formulas
import LieScribe.Group.Kind
import LieScribe.Group.Planar
import LieScribe.Group.Spatial
import LieScribe.LineDiff.Compaction
import LieScribe.LineDiff.Edit
import LieScribe.LineDiff.Hunk
import LieScribe.LineDiff.MiddleSnake
import LieScribe.LineDiff.Report
import LieScribe.LineDiff.Script
import LieScribe.Listing
import LieScribe.Literal
import LieScribe.Operation
import LieScribe.Package.Source
import LieScribe.Package.Writing
import LieScribe.Program.Basic
import LieScribe.Program.Request
import LieScribe.Program.Sharing
import LieScribe.Proofs.Applications
import LieScribe.Proofs.Decimal
import LieScribe.Proofs.Degree
import LieScribe.Proofs.Evaluation
import LieScribe.Proofs.Expr
import LieScribe.Proofs.FirstFault
import LieScribe.Proofs.Integers
import LieScribe.Proofs.Listing.Acceptance
import LieScribe.Proofs.Listing.Names
import LieScribe.Proofs.Listing.Texts
import LieScribe.Proofs.Outcome
import LieScribe.Proofs.Cpp.Types
import LieScribe.Proofs.Python.Kinds
import LieScribe.Proofs.Python.Quotients
import LieScribe.Proofs.Python.Scripts
import LieScribe.Proofs.Python.Values
import LieScribe.Proofs.Reading.Grammar
import LieScribe.Proofs.Reading.Lexicon
import LieScribe.Proofs.Reading.Literals
import LieScribe.Proofs.Reading.Numerals
import LieScribe.Proofs.Reading.Operations
import LieScribe.Proofs.Reading.RoundTrip
import LieScribe.Proofs.Reading.Spelling
import LieScribe.Proofs.Reading.Tokens
import LieScribe.Proofs.Reading.Translation
import LieScribe.Proofs.Renaming
import LieScribe.Proofs.Running
import LieScribe.Proofs.Sharing.Applications
import LieScribe.Proofs.Sharing.Arrangement
import LieScribe.Proofs.Sharing.Criterion
import LieScribe.Proofs.Sharing.Expansion
import LieScribe.Proofs.Sharing.Faithful
import LieScribe.Proofs.Sharing.Idempotence
import LieScribe.Proofs.Sharing.Linearization
import LieScribe.Proofs.Sharing.Names
import LieScribe.Proofs.Sharing.Renaming
import LieScribe.Proofs.Sharing.Values
import LieScribe.Proofs.Sharing.Walk
import LieScribe.Proofs.Sharing.WellFormed
import LieScribe.Proofs.Stepwise
import LieScribe.Proofs.Writing
import LieScribe.Snapshot
import LieScribe.Symbol
import LieScribe.Target.Basic
import LieScribe.Target.Cpp
import LieScribe.Target.Fragment
import LieScribe.Target.Python
import LieScribe.Target.Writing
import LieScribe.Text.Extending
import LieScribe.Text.Lines
import LieScribe.Text.Quoted
import LieScribe.Text.Unprintable
import LieScribe.Text.Utf8
import LieScribe.Proofs.ExactArithmetic
import LieScribe.Proofs.Groups.Operations
import LieScribe.Proofs.Groups.Motions
import LieScribe.Proofs.Groups.Planar
import LieScribe.Proofs.Groups.Spatial
import LieScribe.Proofs.Groups.Tangents
import LieScribe.Proofs.Groups.Compiled
import LieScribe.Proofs.FileTree.Occupants
import LieScribe.Proofs.FileTree.WellFormed
import LieScribe.Proofs.FileTree.Places
import LieScribe.Proofs.FileTree.Accesses
import LieScribe.Proofs.FileTree.Progress
import LieScribe.Proofs.Packages
import LieScribe.Proofs.Snapshots.Update
import LieScribe.Proofs.Snapshots.Obstacles
import LieScribe.Proofs.Traversals
import LieScribe.Proofs.Requests
import LieScribe.Proofs.Sharing.Cost
import LieScribe.Proofs.Reading.Marks
import LieScribe.Proofs.Reading.Integers
import LieScribe.Proofs.Cpp.IntegerLiterals
import LieScribe.Proofs.Python.Dialects
import LieScribe.Proofs.Groups.Regularity
import LieScribe.Proofs.Snapshots.Comparison
import LieScribe.Proofs.Symbols
import LieScribe.Proofs.ByteOrder
import LieScribe.Proofs.Snapshots.Walk
import LieScribe.Proofs.LineDiff.Scripts
import LieScribe.Proofs.LineDiff.Hunks
import LieScribe.Proofs.LineDiff.Lines
import LieScribe.Proofs.LineDiff.Reports
