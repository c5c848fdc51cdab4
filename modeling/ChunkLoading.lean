import ChunkLoading.CommandLine.Arguments
import ChunkLoading.CommandLine.Basic
import ChunkLoading.CommandLine.Execution
import ChunkLoading.CommandLine.Folder
import ChunkLoading.Config.Basic
import ChunkLoading.Config.Document
import ChunkLoading.Config.Validity
import ChunkLoading.Data.Assoc
import ChunkLoading.Data.Fields
import ChunkLoading.Decimal.Binary
import ChunkLoading.Decimal.Fixed
import ChunkLoading.Digest.Sha256
import ChunkLoading.Emitted.FixedCode
import ChunkLoading.Emitted.Generation
import ChunkLoading.Emitted.Section
import ChunkLoading.Graph.Basic
import ChunkLoading.Graph.Query
import ChunkLoading.Graph.Record
import ChunkLoading.Graph.Validity
import ChunkLoading.Id
import ChunkLoading.Json.Basic
import ChunkLoading.Json.Reader
import ChunkLoading.Json.Record
import ChunkLoading.Main
import ChunkLoading.Page.Basic
import ChunkLoading.Page.Blueprint
import ChunkLoading.Page.Command
import ChunkLoading.Page.Delivery
import ChunkLoading.Page.Future
import ChunkLoading.Page.HotUpdate
import ChunkLoading.Page.LoadError
import ChunkLoading.Page.Loading
import ChunkLoading.Page.Options
import ChunkLoading.Page.Performing
import ChunkLoading.Page.Run
import ChunkLoading.Page.Store
import ChunkLoading.Page.Worklist
import ChunkLoading.Proofs.Absorption
import ChunkLoading.Proofs.Acceptance
import ChunkLoading.Proofs.Addresses
import ChunkLoading.Proofs.Advice
import ChunkLoading.Proofs.Agreement
import ChunkLoading.Proofs.Blindness
import ChunkLoading.Proofs.Bystanders
import ChunkLoading.Proofs.Children
import ChunkLoading.Proofs.ChunkArguments
import ChunkLoading.Proofs.CodeTokens
import ChunkLoading.Proofs.Commands
import ChunkLoading.Proofs.Completions
import ChunkLoading.Proofs.Core
import ChunkLoading.Proofs.Deeds
import ChunkLoading.Proofs.Deliveries
import ChunkLoading.Proofs.Demand
import ChunkLoading.Proofs.Duplicates
import ChunkLoading.Proofs.Entries
import ChunkLoading.Proofs.Expressions
import ChunkLoading.Proofs.Extensionless
import ChunkLoading.Proofs.FailFast
import ChunkLoading.Proofs.Fallible
import ChunkLoading.Proofs.Frame
import ChunkLoading.Proofs.Header
import ChunkLoading.Proofs.Hintless
import ChunkLoading.Proofs.History
import ChunkLoading.Proofs.Imports
import ChunkLoading.Proofs.Interruption
import ChunkLoading.Proofs.Joins
import ChunkLoading.Proofs.Keys
import ChunkLoading.Proofs.Ledger
import ChunkLoading.Proofs.Levels
import ChunkLoading.Proofs.LifeCycle
import ChunkLoading.Proofs.Likeness
import ChunkLoading.Proofs.LineOrder
import ChunkLoading.Proofs.Lists
import ChunkLoading.Proofs.Literals
import ChunkLoading.Proofs.Mail
import ChunkLoading.Proofs.Modules
import ChunkLoading.Proofs.Needs
import ChunkLoading.Proofs.Observation
import ChunkLoading.Proofs.Order
import ChunkLoading.Proofs.Placeholders
import ChunkLoading.Proofs.PlainCommands
import ChunkLoading.Proofs.Plainness
import ChunkLoading.Proofs.Post
import ChunkLoading.Proofs.Preloads
import ChunkLoading.Proofs.Quotation
import ChunkLoading.Proofs.Rearrangement
import ChunkLoading.Proofs.Records
import ChunkLoading.Proofs.References
import ChunkLoading.Proofs.Refusal
import ChunkLoading.Proofs.Reordering
import ChunkLoading.Proofs.Resources
import ChunkLoading.Proofs.Return
import ChunkLoading.Proofs.Roster
import ChunkLoading.Proofs.Run
import ChunkLoading.Proofs.SectionOrder
import ChunkLoading.Proofs.Settlement
import ChunkLoading.Proofs.Showings
import ChunkLoading.Proofs.Sight
import ChunkLoading.Proofs.Soundness
import ChunkLoading.Proofs.StartupLines
import ChunkLoading.Proofs.Startups
import ChunkLoading.Proofs.Store
import ChunkLoading.Proofs.Supply
import ChunkLoading.Proofs.Tables
import ChunkLoading.Proofs.TemplatePattern
import ChunkLoading.Proofs.Transparency
import ChunkLoading.Proofs.Turn
import ChunkLoading.Proofs.Uniformity
import ChunkLoading.Proofs.UpdateAddresses
import ChunkLoading.Proofs.Updates
import ChunkLoading.Proofs.Validity
import ChunkLoading.Proofs.Views
import ChunkLoading.Proofs.Watch
import ChunkLoading.Requirements
import ChunkLoading.Template
import ChunkLoading.Text.Boundaries
import ChunkLoading.Text.DecimalDigit
import ChunkLoading.Text.Identifier
import ChunkLoading.Text.Measure
import ChunkLoading.Text.Numeral
import ChunkLoading.Text.Printable
import ChunkLoading.Text.Quoted
import ChunkLoading.Text.WordChar
import ChunkLoading.Toml.Basic
import ChunkLoading.Toml.Reader
import ChunkLoading.Toml.Token
