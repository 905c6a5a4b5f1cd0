import GraphStore.Command.Help
import GraphStore.Command.Line
import GraphStore.Command.Output
import GraphStore.Command.Run
import GraphStore.Command.Shell
import GraphStore.Command.Table
import GraphStore.Configuration
import GraphStore.Database
import GraphStore.DatabaseCatalog
import GraphStore.Disk.Location
import GraphStore.Disk.Path
import GraphStore.Disk.Replacement
import GraphStore.Disk.Stages
import GraphStore.Disk.Tree
import GraphStore.Double.Basic
import GraphStore.Double.Decimal
import GraphStore.Double.Layout
import GraphStore.Double.Shortest
import GraphStore.Graph.Codec
import GraphStore.Graph.Node
import GraphStore.Graph.Relationship
import GraphStore.Identifier
import GraphStore.Index.Catalog
import GraphStore.Index.PropertyIndex
import GraphStore.Json.Basic
import GraphStore.Json.Number
import GraphStore.Json.Quoted
import GraphStore.Json.Reader
import GraphStore.Json.Record
import GraphStore.Json.Token
import GraphStore.Json.Writer
import GraphStore.Lock.Registry
import GraphStore.Main
import GraphStore.Operator
import GraphStore.Program.Basic
import GraphStore.Program.Machine
import GraphStore.Program.World
import GraphStore.Proofs.Command.Queries
import GraphStore.Proofs.Command.Shells
import GraphStore.Proofs.Disk.Descents
import GraphStore.Proofs.Disk.Directories
import GraphStore.Proofs.Disk.Entries
import GraphStore.Proofs.Disk.Lengths
import GraphStore.Proofs.Disk.Making
import GraphStore.Proofs.Disk.Names
import GraphStore.Proofs.Disk.Places
import GraphStore.Proofs.Disk.Renames
import GraphStore.Proofs.Disk.Replacements
import GraphStore.Proofs.Disk.Targets
import GraphStore.Proofs.Disk.Updates
import GraphStore.Proofs.Double.Exact
import GraphStore.Proofs.Double.Order
import GraphStore.Proofs.Double.Places
import GraphStore.Proofs.Double.Vast
import GraphStore.Proofs.Graph.Recovered
import GraphStore.Proofs.Graph.Stored
import GraphStore.Proofs.Index.Buckets
import GraphStore.Proofs.Index.Catalogs
import GraphStore.Proofs.Index.Creations
import GraphStore.Proofs.Index.Documents
import GraphStore.Proofs.Index.Filings
import GraphStore.Proofs.Index.Probes
import GraphStore.Proofs.Index.Reachability
import GraphStore.Proofs.Json.Doubles
import GraphStore.Proofs.Json.Finite
import GraphStore.Proofs.Json.Numbers
import GraphStore.Proofs.Json.Sorted
import GraphStore.Proofs.Json.Strings
import GraphStore.Proofs.Json.Written
import GraphStore.Proofs.KeyTexts
import GraphStore.Proofs.Literals
import GraphStore.Proofs.Lock.Deadlocks
import GraphStore.Proofs.Program.Runs
import GraphStore.Proofs.Program.Sections
import GraphStore.Proofs.Program.Traces
import GraphStore.Proofs.Query.Additions
import GraphStore.Proofs.Query.Comparisons
import GraphStore.Proofs.Query.Effects
import GraphStore.Proofs.Query.Embeddings
import GraphStore.Proofs.Query.Equality
import GraphStore.Proofs.Query.Failures
import GraphStore.Proofs.Query.Indexing
import GraphStore.Proofs.Query.Maintenance
import GraphStore.Proofs.Query.Parsing
import GraphStore.Proofs.Query.Paths
import GraphStore.Proofs.Query.Patterns
import GraphStore.Proofs.Query.Progress
import GraphStore.Proofs.Query.Quotations
import GraphStore.Proofs.Query.Readability
import GraphStore.Proofs.Query.Readings
import GraphStore.Proofs.Query.References
import GraphStore.Proofs.Query.Relocations
import GraphStore.Proofs.Query.Saves
import GraphStore.Proofs.Query.Staleness
import GraphStore.Proofs.Query.Tokens
import GraphStore.Proofs.Query.WireForms
import GraphStore.Proofs.Query.Written
import GraphStore.Proofs.SortedMaps
import GraphStore.Proofs.Store.Creations
import GraphStore.Proofs.Store.Databases
import GraphStore.Proofs.Store.Documents
import GraphStore.Proofs.Store.Holdings
import GraphStore.Proofs.Store.RoundTrips
import GraphStore.Proofs.Store.Stores
import GraphStore.Proofs.Transaction.Abandonment
import GraphStore.Proofs.Transaction.Begins
import GraphStore.Proofs.Transaction.Changes
import GraphStore.Proofs.Transaction.ConcurrentReads
import GraphStore.Proofs.Transaction.Contents
import GraphStore.Proofs.Transaction.Crashes
import GraphStore.Proofs.Transaction.Definitions
import GraphStore.Proofs.Transaction.Endings
import GraphStore.Proofs.Transaction.Exclusion
import GraphStore.Proofs.Transaction.Histories
import GraphStore.Proofs.Transaction.Interleavings
import GraphStore.Proofs.Transaction.Layouts
import GraphStore.Proofs.Transaction.Lifetimes
import GraphStore.Proofs.Transaction.MaintainedIndexes
import GraphStore.Proofs.Transaction.Markers
import GraphStore.Proofs.Transaction.Openings
import GraphStore.Proofs.Transaction.Ownership
import GraphStore.Proofs.Transaction.Passages
import GraphStore.Proofs.Transaction.Publications
import GraphStore.Proofs.Transaction.References
import GraphStore.Proofs.Transaction.Refinement
import GraphStore.Proofs.Transaction.Removals
import GraphStore.Proofs.Transaction.Repetitions
import GraphStore.Proofs.Transaction.Service
import GraphStore.Proofs.Transaction.Servings
import GraphStore.Proofs.Transaction.Sessions
import GraphStore.Proofs.Transaction.Stagings
import GraphStore.Proofs.Transaction.Staleness
import GraphStore.Proofs.Transaction.WorkspaceNames
import GraphStore.Proofs.Transaction.Workspaces
import GraphStore.Proofs.Transaction.Writers
import GraphStore.Properties
import GraphStore.Query.Execution
import GraphStore.Query.Grammar
import GraphStore.Query.Matching
import GraphStore.Query.Parser
import GraphStore.Query.Response
import GraphStore.Query.Statement
import GraphStore.Settings
import GraphStore.SortedMap
import GraphStore.Store.Collections
import GraphStore.Store.Document
import GraphStore.Text.Digits
import GraphStore.Text.Emoji
import GraphStore.Text.Escaped
import GraphStore.Text.Extending
import GraphStore.Text.Invisible
import GraphStore.Text.Ranges
import GraphStore.Text.Scanner
import GraphStore.Text.Search
import GraphStore.Text.Trim
import GraphStore.Text.Wide
import GraphStore.Text.Width
import GraphStore.Transaction.Manager
import GraphStore.Transaction.Owner
import GraphStore.Transaction.Workspace
import GraphStore.Value
import GraphStore.Yaml.Cursor
import GraphStore.Yaml.Node
import GraphStore.Yaml.Scalar
import GraphStore.Yaml.Tag
import GraphStore.Yaml.Token
