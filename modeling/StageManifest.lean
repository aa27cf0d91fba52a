import StageManifest.Action.Listing
import StageManifest.Action.Perform
import StageManifest.Action.Settings
import StageManifest.Action.Targets
import StageManifest.Chain.Basic
import StageManifest.Chain.Store
import StageManifest.CommandLine.Grammar
import StageManifest.CommandLine.Invocation
import StageManifest.CommandLine.Reading
import StageManifest.Config.Basic
import StageManifest.Config.Edit
import StageManifest.Config.Files
import StageManifest.Config.Layers
import StageManifest.Digest.Sha256
import StageManifest.Engine.Operations
import StageManifest.Engine.Output
import StageManifest.Engine.Program
import StageManifest.Engine.Request
import StageManifest.Engine.Streams
import StageManifest.Entries
import StageManifest.Failure
import StageManifest.Graph.Discovery
import StageManifest.Graph.Manifest
import StageManifest.Graph.Order
import StageManifest.Host.Basic
import StageManifest.Host.Files
import StageManifest.Host.Machine
import StageManifest.Host.Path
import StageManifest.HostPath
import StageManifest.Instruction.Basic
import StageManifest.Instruction.CacheMount
import StageManifest.Instruction.MountDocument
import StageManifest.Instruction.Recipe
import StageManifest.Main
import StageManifest.Number.Binary64
import StageManifest.Plan.File
import StageManifest.Plan.Load
import StageManifest.Plan.Resolve
import StageManifest.Progress
import StageManifest.Proofs.Action.Asking
import StageManifest.Proofs.Action.Saving
import StageManifest.Proofs.Action.Targets
import StageManifest.Proofs.Chain.Contents
import StageManifest.Proofs.Chain.Ends
import StageManifest.Proofs.Chain.Histories
import StageManifest.Proofs.Chain.Keepers
import StageManifest.Proofs.Chain.Ownership
import StageManifest.Proofs.Config.Decoding
import StageManifest.Proofs.Config.Documents
import StageManifest.Proofs.Config.EditEffects
import StageManifest.Proofs.Config.Faults
import StageManifest.Proofs.Config.GlobalEdit
import StageManifest.Proofs.Config.Layering
import StageManifest.Proofs.Config.Loading
import StageManifest.Proofs.Config.ProjectEdit
import StageManifest.Proofs.Config.Settings
import StageManifest.Proofs.Config.Text
import StageManifest.Proofs.Engine.CommandLines
import StageManifest.Proofs.Engine.Operations
import StageManifest.Proofs.Engine.OutputLines
import StageManifest.Proofs.Engine.Programs
import StageManifest.Proofs.Engine.Streams
import StageManifest.Proofs.Engine.Tail
import StageManifest.Proofs.Graph.Acyclicity
import StageManifest.Proofs.Graph.Arrangement
import StageManifest.Proofs.Graph.Blocks
import StageManifest.Proofs.Graph.Collection
import StageManifest.Proofs.Graph.Continuation
import StageManifest.Proofs.Graph.DepthFirst
import StageManifest.Proofs.Graph.Discovery
import StageManifest.Proofs.Graph.Emission
import StageManifest.Proofs.Graph.Order
import StageManifest.Proofs.Graph.PostOrder
import StageManifest.Proofs.Graph.Preorder
import StageManifest.Proofs.Graph.References
import StageManifest.Proofs.Graph.Relinking
import StageManifest.Proofs.Graph.Sharing
import StageManifest.Proofs.Graph.Simulation
import StageManifest.Proofs.Host.Directories
import StageManifest.Proofs.Host.Files
import StageManifest.Proofs.Host.Runs
import StageManifest.Proofs.Host.Telling
import StageManifest.Proofs.Host.Ways
import StageManifest.Proofs.Instruction.Canonical
import StageManifest.Proofs.Instruction.Lines
import StageManifest.Proofs.Instruction.MountText
import StageManifest.Proofs.Instruction.RunLines
import StageManifest.Proofs.Instruction.ShortDigests
import StageManifest.Proofs.Instruction.Words
import StageManifest.Proofs.Plan.Built
import StageManifest.Proofs.Plan.CacheIds
import StageManifest.Proofs.Plan.CacheMounts
import StageManifest.Proofs.Plan.Closure
import StageManifest.Proofs.Plan.Growth
import StageManifest.Proofs.Plan.Isolation
import StageManifest.Proofs.Plan.Keys
import StageManifest.Proofs.Plan.Loading
import StageManifest.Proofs.Plan.Lockstep
import StageManifest.Proofs.Plan.Outcome
import StageManifest.Proofs.Plan.Portrait
import StageManifest.Proofs.Plan.Progress
import StageManifest.Proofs.Plan.References
import StageManifest.Proofs.Plan.Resolution
import StageManifest.Proofs.Plan.Scalars
import StageManifest.Proofs.Plan.StableIds
import StageManifest.Proofs.Plan.Tables
import StageManifest.Proofs.Progress.StepLines
import StageManifest.Proofs.Stage.Draws
import StageManifest.Proofs.Stage.Growth
import StageManifest.Proofs.Stage.Names
import StageManifest.Proofs.Stage.Reachability
import StageManifest.Proofs.Stage.References
import StageManifest.Proofs.Stage.Renaming
import StageManifest.Proofs.Stage.Session
import StageManifest.Proofs.Stage.Value
import StageManifest.Proofs.Text.ByteOrder
import StageManifest.Proofs.Text.Cuts
import StageManifest.Proofs.Text.Digits
import StageManifest.Proofs.Text.Json
import StageManifest.Proofs.Text.Paragraphs
import StageManifest.Proofs.Text.TextBytes
import StageManifest.Proofs.Text.Utf8
import StageManifest.Proofs.Toml.Data
import StageManifest.Proofs.Toml.Distinct
import StageManifest.Proofs.Toml.Expressions
import StageManifest.Proofs.Toml.Integers
import StageManifest.Proofs.Toml.Paths
import StageManifest.Proofs.Toml.Record
import StageManifest.Proofs.Toml.Sections
import StageManifest.Proofs.Toml.Strings
import StageManifest.Proofs.Toml.Views
import StageManifest.Stage.Basic
import StageManifest.Stage.Growth
import StageManifest.Stage.Names
import StageManifest.Text.Blank
import StageManifest.Text.Digits
import StageManifest.Text.GraphemeExtend
import StageManifest.Text.Json
import StageManifest.Text.Lines
import StageManifest.Text.Quoted
import StageManifest.Text.Unprintable
import StageManifest.Text.Utf8
import StageManifest.Toml.DateTime
import StageManifest.Toml.Decode
import StageManifest.Toml.Document
import StageManifest.Toml.Draft
import StageManifest.Toml.Mismatch
import StageManifest.Toml.Parse
import StageManifest.Toml.Printer
import StageManifest.Toml.Quote
import StageManifest.Toml.Scalar
import StageManifest.Toml.Unquote
import StageManifest.Toml.Value
