import Linkage.Command.Arguments
import Linkage.Command.Failure
import Linkage.Command.Output
import Linkage.Command.Run
import Linkage.Config.Basic
import Linkage.Config.Layers
import Linkage.Date
import Linkage.Dict
import Linkage.Error
import Linkage.Event.Basic
import Linkage.Event.Codec
import Linkage.Event.Delivery
import Linkage.Event.Id
import Linkage.Event.Instant
import Linkage.Event.Log
import Linkage.Json.Magnitude
import Linkage.Json.Number
import Linkage.Json.Parser
import Linkage.Json.Printer
import Linkage.Json.Raw
import Linkage.Json.Shortest
import Linkage.Json.Value
import Linkage.Lookup.Api
import Linkage.Lookup.Basic
import Linkage.Main
import Linkage.Overrides
import Linkage.Program
import Linkage.Rebuild.Resolve
import Linkage.Rebuild.Run
import Linkage.Reconcile.Desired
import Linkage.Reconcile.Run
import Linkage.Record
import Linkage.Relation
import Linkage.Report
import Linkage.Scope
import Linkage.Sink
import Linkage.Space
import Linkage.Store.Basic
import Linkage.Store.Codec
import Linkage.Store.Links
import Linkage.Store.Query
import Linkage.Store.Rows
import Linkage.Store.Snapshot
import Linkage.Store.Spaces
import Linkage.Store.Table
import Linkage.Strategy
import Linkage.Text.Blank
import Linkage.Text.Columns
import Linkage.Text.Cut
import Linkage.Text.Decimal
import Linkage.Text.Grid
import Linkage.Text.Hex
import Linkage.Text.Quoted
import Linkage.Toml.Document
import Linkage.Toml.Quoted
import Linkage.Toml.Scalar
import Linkage.Toml.Section
import Linkage.Toml.Statement
import Linkage.Toml.Value
import Linkage.Url.Basic
import Linkage.Url.Encode
import Linkage.Url.Host
import Linkage.Url.Punycode
import Linkage.Proofs.Query.Bulk
import Linkage.Proofs.Store.Named
import Linkage.Proofs.Rebuild.Resolution
import Linkage.Proofs.Rebuild.Resolved
import Linkage.Proofs.Dict.Group
import Linkage.Proofs.Store.Commit
import Linkage.Proofs.Store.Ownership
import Linkage.Proofs.Rebuild.Batch
import Linkage.Proofs.Rebuild.Permanence
import Linkage.Proofs.Json.Texts
import Linkage.Proofs.Store.Insertion
import Linkage.Proofs.Store.Claim
import Linkage.Proofs.Rebuild.Integrity
import Linkage.Proofs.Rebuild.Later
import Linkage.Proofs.Rebuild.Ahead
import Linkage.Proofs.Rebuild.DryRun
import Linkage.Proofs.Reconcile.Difference
import Linkage.Proofs.Reconcile.Convergence
import Linkage.Proofs.Dict.Last
import Linkage.Proofs.Reconcile.Declared
import Linkage.Proofs.Rebuild.Checks
import Linkage.Proofs.Rebuild.Reasons
import Linkage.Proofs.Rebuild.Writing
import Linkage.Proofs.Query.Calm
import Linkage.Proofs.Rebuild.Resume
import Linkage.Proofs.Rebuild.Interrupted
import Linkage.Proofs.Query.Length
import Linkage.Proofs.Reconcile.Pass
import Linkage.Proofs.Reconcile.Interrupted
import Linkage.Proofs.Reconcile.StoreLookup
import Linkage.Proofs.Rebuild.Tally
import Linkage.Proofs.Rebuild.Fixpoint
import Linkage.Proofs.Store.Within
import Linkage.Proofs.Rebuild.Isolation
import Linkage.Proofs.Event.Delivery
import Linkage.Proofs.Rebuild.Events
import Linkage.Proofs.Event.Story
import Linkage.Proofs.Reconcile.Businesses
import Linkage.Proofs.Reconcile.Locality
import Linkage.Proofs.Rebuild.SinkSet
import Linkage.Proofs.Rebuild.Takeover
import Linkage.Proofs.Json.Grammar
import Linkage.Proofs.Lookup.Replies
import Linkage.Proofs.Lookup.Answers
import Linkage.Proofs.Config.File
import Linkage.Proofs.Config.Overrides
import Linkage.Proofs.Config.Precedence
import Linkage.Proofs.Rebuild.SinkOrder
import Linkage.Proofs.Reconcile.Lookups
import Linkage.Proofs.Reconcile.Members
import Linkage.Proofs.Lookup.Refusals
import Linkage.Proofs.Config.Items
import Linkage.Proofs.Query.OneStatement
import Linkage.Proofs.Store.History
import Linkage.Proofs.Json.Magnitudes
import Linkage.Proofs.Json.Shortest
import Linkage.Proofs.Json.Numbers
import Linkage.Proofs.Store.Columns
import Linkage.Proofs.Config.Spelling
import Linkage.Proofs.Event.Levels
import Linkage.Proofs.Json.Order
import Linkage.Proofs.Report.ReadBack
import Linkage.Proofs.Event.ReadBack
import Linkage.Proofs.Rebuild.PlanTables
import Linkage.Proofs.Rebuild.Grouping
import Linkage.Proofs.Lookup.SpaceUids
