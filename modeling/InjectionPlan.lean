import InjectionPlan.Command.Arguments
import InjectionPlan.Command.Failure
import InjectionPlan.Command.Files
import InjectionPlan.Command.Run
import InjectionPlan.Command.Storage
import InjectionPlan.Diagram.Basic
import InjectionPlan.Diagram.Component
import InjectionPlan.Dot.Output
import InjectionPlan.Dot.Rendering
import InjectionPlan.Dot.Settings
import InjectionPlan.Dot.SettingsJson
import InjectionPlan.Dot.SettingsToml
import InjectionPlan.Dot.Statement
import InjectionPlan.Json.Draft
import InjectionPlan.Json.Fault
import InjectionPlan.Json.Lexeme
import InjectionPlan.Json.Member
import InjectionPlan.Json.Record
import InjectionPlan.Json.Tree
import InjectionPlan.Json.Value
import InjectionPlan.Main
import InjectionPlan.Number.Binary64
import InjectionPlan.Number.Exact
import InjectionPlan.Number.Layout
import InjectionPlan.Number.Literal
import InjectionPlan.Number.Shortest
import InjectionPlan.Plan.Basic
import InjectionPlan.Plan.Document
import InjectionPlan.Plan.Graph
import InjectionPlan.Plan.Order
import InjectionPlan.Plan.Reading
import InjectionPlan.Plan.Writing
import InjectionPlan.Proofs.Accounts
import InjectionPlan.Proofs.Building
import InjectionPlan.Proofs.Carrying
import InjectionPlan.Proofs.Conduct
import InjectionPlan.Proofs.Coverage
import InjectionPlan.Proofs.Discovery
import InjectionPlan.Proofs.Dumping
import InjectionPlan.Proofs.Faults
import InjectionPlan.Proofs.Handover
import InjectionPlan.Proofs.Naming
import InjectionPlan.Proofs.Outcome
import InjectionPlan.Proofs.Portrait
import InjectionPlan.Proofs.Ports
import InjectionPlan.Proofs.Retries
import InjectionPlan.Proofs.Settling
import InjectionPlan.Proofs.Tour
import InjectionPlan.Proofs.Watching
import InjectionPlan.Proofs.Wires
import InjectionPlan.Session.Basic
import InjectionPlan.Session.Bound
import InjectionPlan.Session.Log
import InjectionPlan.Session.Queue
import InjectionPlan.Session.Registry
import InjectionPlan.Session.Walk
import InjectionPlan.Sink
import InjectionPlan.Table
import InjectionPlan.Text.Hidden
import InjectionPlan.Text.LastSegment
import InjectionPlan.Text.Quoted
import InjectionPlan.Toml.Fault
import InjectionPlan.Toml.Lexeme
import InjectionPlan.Toml.Reader
import InjectionPlan.Toml.Value
import InjectionPlan.Proofs.Script
import InjectionPlan.Proofs.Refusals
import InjectionPlan.Proofs.Embedding
import InjectionPlan.Proofs.Processing
import InjectionPlan.Proofs.Renaming
import InjectionPlan.Proofs.Markup
import InjectionPlan.Proofs.Tokens
import InjectionPlan.Proofs.Decoding
import InjectionPlan.Proofs.Writing
import InjectionPlan.Proofs.Rendering
import InjectionPlan.Proofs.Streaming
import InjectionPlan.Proofs.Ordering
import InjectionPlan.Proofs.Guises
import InjectionPlan.Proofs.Sharing
import InjectionPlan.Proofs.Loading
import InjectionPlan.Proofs.Rearranging
import InjectionPlan.Proofs.Lexemes
import InjectionPlan.Proofs.Trees
import InjectionPlan.Proofs.Fields
import InjectionPlan.Proofs.Documents
import InjectionPlan.Proofs.Numbering
import InjectionPlan.Proofs.Defects
import InjectionPlan.Proofs.Overwriting
import InjectionPlan.Proofs.Grammar
import InjectionPlan.Proofs.Spelling
import InjectionPlan.Proofs.Records
import InjectionPlan.Proofs.Revisions
import InjectionPlan.Proofs.Admission
import InjectionPlan.Proofs.Arrangement
import InjectionPlan.Proofs.Delivering
import InjectionPlan.Proofs.Nesting
import InjectionPlan.Proofs.Termination
import InjectionPlan.Proofs.Directing
import InjectionPlan.Proofs.Keywords
import InjectionPlan.Proofs.Precedence
import InjectionPlan.Proofs.Search
import InjectionPlan.Proofs.Sequence
import InjectionPlan.Proofs.Logging
import InjectionPlan.Proofs.Rows
import InjectionPlan.Proofs.Labels
import InjectionPlan.Proofs.Calls
import InjectionPlan.Proofs.Tallies
import InjectionPlan.Proofs.Drafting
import InjectionPlan.Proofs.Misuse
import InjectionPlan.Proofs.Lasting
import InjectionPlan.Proofs.Incidence
import InjectionPlan.Proofs.Issuing
import InjectionPlan.Proofs.Flushing
import InjectionPlan.Proofs.Lookup
import InjectionPlan.Proofs.Resolving
