import CiPipeline.Chain.Expectation
import CiPipeline.Chain.Link
import CiPipeline.Chain.Run
import CiPipeline.Chain.Standard
import CiPipeline.Creation.Basic
import CiPipeline.Creation.Error
import CiPipeline.Creation.Filtering
import CiPipeline.Creation.Persistence
import CiPipeline.Creation.Seeding
import CiPipeline.Creation.Work
import CiPipeline.Decimal.Binary64
import CiPipeline.Decimal.Shortest
import CiPipeline.Definition.Basic
import CiPipeline.Definition.Samples
import CiPipeline.Definition.Verdict
import CiPipeline.Definition.Written
import CiPipeline.Dict
import CiPipeline.Event.Attributes
import CiPipeline.Event.Basic
import CiPipeline.Graph.Basic
import CiPipeline.Graph.Cycles
import CiPipeline.Graph.Needs
import CiPipeline.Graph.Node
import CiPipeline.Graph.Problem
import CiPipeline.Graph.Survey
import CiPipeline.Json.Codec
import CiPipeline.Json.Doc
import CiPipeline.Json.Fault
import CiPipeline.Json.NumberText
import CiPipeline.Json.QuotedText
import CiPipeline.Json.Reader
import CiPipeline.Json.Record
import CiPipeline.Json.Value
import CiPipeline.Json.Writer
import CiPipeline.Log
import CiPipeline.Pipeline.Basic
import CiPipeline.Pipeline.Registration
import CiPipeline.Pipeline.Status
import CiPipeline.Project.Basic
import CiPipeline.Ref.Glob
import CiPipeline.Ref.Protection
import CiPipeline.Regex.CharSet
import CiPipeline.Regex.Engine
import CiPipeline.Regex.Expr
import CiPipeline.Regex.Matching
import CiPipeline.Regex.Meaning
import CiPipeline.Regex.Names
import CiPipeline.Regex.Reader
import CiPipeline.Regex.Standard
import CiPipeline.Regex.Tree
import CiPipeline.Settings.Basic
import CiPipeline.Settings.Overrides
import CiPipeline.Store.CiRefs
import CiPipeline.Store.Repository
import CiPipeline.Store.Sequence
import CiPipeline.Store.StoredPipeline
import CiPipeline.Store.Stores
import CiPipeline.Text.Blank
import CiPipeline.Text.CaseFold
import CiPipeline.Text.Category
import CiPipeline.Text.Quoted
import CiPipeline.Text.Replaced
import CiPipeline.Time.Instant
import CiPipeline.Time.Written
import CiPipeline.Proofs.Regex.Reading
import CiPipeline.Proofs.Regex.Search
import CiPipeline.Proofs.Regex.Plain
import CiPipeline.Proofs.Ref.Globs
import CiPipeline.Proofs.Definition.FirstMatch
import CiPipeline.Proofs.Graph.Rings
import CiPipeline.Proofs.Graph.Search
import CiPipeline.Proofs.Graph.Needs
import CiPipeline.Proofs.Graph.Structure
import CiPipeline.Proofs.Graph.Validity
import CiPipeline.Proofs.Creation.Frame
import CiPipeline.Proofs.Store.Persisting
import CiPipeline.Proofs.Chain.Ending
import CiPipeline.Proofs.Chain.Atomicity
import CiPipeline.Proofs.Chain.Decision
import CiPipeline.Proofs.Chain.Retry
import CiPipeline.Proofs.History.World
import CiPipeline.Proofs.Store.WellFormed
import CiPipeline.Proofs.History.Records
import CiPipeline.Proofs.History.Numbers
import CiPipeline.Proofs.History.Allocation
import CiPipeline.Proofs.History.Retry
import CiPipeline.Proofs.Graph.Reordering
import CiPipeline.Proofs.Graph.Pruning
import CiPipeline.Proofs.Store.Transactions
import CiPipeline.Proofs.Chain.Lockstep
import CiPipeline.Proofs.Chain.Deferral
import CiPipeline.Proofs.Chain.Finality
import CiPipeline.Proofs.History.Finality
import CiPipeline.Proofs.Chain.Reuse
import CiPipeline.Proofs.Chain.Trace
import CiPipeline.Proofs.History.Keeping
import CiPipeline.Proofs.Chain.Invocation
import CiPipeline.Proofs.Graph.Clashes
import CiPipeline.Proofs.Graph.Declarations
import CiPipeline.Proofs.Graph.Reporting
import CiPipeline.Proofs.Graph.Genuineness
import CiPipeline.Proofs.Graph.Resolution
import CiPipeline.Proofs.Graph.Hints
import CiPipeline.Proofs.Store.CiRefs
import CiPipeline.Proofs.Store.Counting
import CiPipeline.Proofs.Creation.Block
import CiPipeline.Proofs.Chain.Failure
import CiPipeline.Proofs.Time.ReadBack
import CiPipeline.Proofs.Json.Documents
import CiPipeline.Proofs.Graph.Moments
import CiPipeline.Proofs.Graph.Termination
import CiPipeline.Proofs.Settings.Overrides
import CiPipeline.Proofs.Definition.NeedSpelling
