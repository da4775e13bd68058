import RegionFlow.Expectation.Basic
import RegionFlow.Expectation.Matching
import RegionFlow.Expectation.Reading
import RegionFlow.Expr
import RegionFlow.Failure
import RegionFlow.Graph.Agreement
import RegionFlow.Graph.Basic
import RegionFlow.Graph.Defect
import RegionFlow.Graph.Expansion
import RegionFlow.Graph.Generation
import RegionFlow.Instruction.Basic
import RegionFlow.Instruction.Listing
import RegionFlow.Instruction.Reading
import RegionFlow.Json.Cursor
import RegionFlow.Json.Decoder
import RegionFlow.Json.Number
import RegionFlow.Json.Numerals
import RegionFlow.Json.Problem
import RegionFlow.Json.Skipping
import RegionFlow.Json.Strings
import RegionFlow.Lift
import RegionFlow.Merge
import RegionFlow.Opcode
import RegionFlow.Polyhedral.Basic
import RegionFlow.Polyhedral.Bounds
import RegionFlow.Polyhedral.Reading
import RegionFlow.Proofs.Accesses
import RegionFlow.Proofs.Agreement
import RegionFlow.Proofs.Appending
import RegionFlow.Proofs.ArenaGrowth
import RegionFlow.Proofs.Arrays
import RegionFlow.Proofs.Building
import RegionFlow.Proofs.Closedness
import RegionFlow.Proofs.Comparison
import RegionFlow.Proofs.Constants
import RegionFlow.Proofs.Definitions
import RegionFlow.Proofs.Depth
import RegionFlow.Proofs.Drafting
import RegionFlow.Proofs.Dropping
import RegionFlow.Proofs.Elements
import RegionFlow.Proofs.Emission
import RegionFlow.Proofs.Equisatisfaction
import RegionFlow.Proofs.Expansions
import RegionFlow.Proofs.Extents
import RegionFlow.Proofs.Failing
import RegionFlow.Proofs.Generability
import RegionFlow.Proofs.Generation
import RegionFlow.Proofs.Indices
import RegionFlow.Proofs.Inspection
import RegionFlow.Proofs.Lifting
import RegionFlow.Proofs.Lines
import RegionFlow.Proofs.Lockstep
import RegionFlow.Proofs.Makings
import RegionFlow.Proofs.Meaning
import RegionFlow.Proofs.MergeLines
import RegionFlow.Proofs.Merging
import RegionFlow.Proofs.Nesting
import RegionFlow.Proofs.NodeSets
import RegionFlow.Proofs.Obstacles
import RegionFlow.Proofs.Operands
import RegionFlow.Proofs.Ordering
import RegionFlow.Proofs.Overriding
import RegionFlow.Proofs.Propagation
import RegionFlow.Proofs.Readers
import RegionFlow.Proofs.References
import RegionFlow.Proofs.Rendering
import RegionFlow.Proofs.Rereading
import RegionFlow.Proofs.Resolving
import RegionFlow.Proofs.Scheduling
import RegionFlow.Proofs.Scopes
import RegionFlow.Proofs.Searching
import RegionFlow.Proofs.Sequencing
import RegionFlow.Proofs.Substitution
import RegionFlow.Proofs.Tables
import RegionFlow.Proofs.TestSources
import RegionFlow.Proofs.TrailingAttributes
import RegionFlow.Proofs.Traversal
import RegionFlow.Proofs.TypedOperands
import RegionFlow.Proofs.Unfolding
import RegionFlow.Proofs.Validation
import RegionFlow.Proofs.WellFormedness
import RegionFlow.Proofs.WrittenLines
import RegionFlow.Record.Basic
import RegionFlow.Record.Decoding
import RegionFlow.Region.Basic
import RegionFlow.Region.Draft
import RegionFlow.Region.Dump
import RegionFlow.Region.Finding
import RegionFlow.Region.Metadata
import RegionFlow.Region.OfRecord
import RegionFlow.Region.Order
import RegionFlow.Region.Propagation
import RegionFlow.Region.Verification
import RegionFlow.ScalarType
import RegionFlow.Search
import RegionFlow.Storage
import RegionFlow.Table
import RegionFlow.TestFile.Basic
import RegionFlow.TestFile.Reading
import RegionFlow.TestFile.Running
import RegionFlow.Text.Blank
import RegionFlow.Text.Classes
import RegionFlow.Text.Integer
import RegionFlow.Text.Quoted
import RegionFlow.Text.Reader
import RegionFlow.Text.Split
import RegionFlow.Value.Basic
import RegionFlow.Value.Expansion
import RegionFlow.Value.Validity
