import InterfacePlan.Backend
import InterfacePlan.Collection.SortedMap
import InterfacePlan.CommandLine.Arguments
import InterfacePlan.CommandLine.Output
import InterfacePlan.CommandLine.Report
import InterfacePlan.Data.Basic
import InterfacePlan.Data.Decode
import InterfacePlan.Data.JsonText
import InterfacePlan.Diagnostic
import InterfacePlan.Digraph.Basic
import InterfacePlan.Digraph.Search
import InterfacePlan.FileTree.Basic
import InterfacePlan.FileTree.WorkingTree
import InterfacePlan.Glob.Listing
import InterfacePlan.Glob.Pattern
import InterfacePlan.Glob.Walk
import InterfacePlan.Import.Cycle
import InterfacePlan.Import.Reference
import InterfacePlan.Import.Resolve
import InterfacePlan.Interface.Basic
import InterfacePlan.Interface.Record
import InterfacePlan.Interface.Versions
import InterfacePlan.Journal
import InterfacePlan.Library.Completion
import InterfacePlan.Library.Dispatch
import InterfacePlan.Library.Managed
import InterfacePlan.Library.MemorySafe
import InterfacePlan.Library.Native
import InterfacePlan.Library.Request
import InterfacePlan.Main
import InterfacePlan.Module.Basic
import InterfacePlan.Module.Record
import InterfacePlan.ModuleGraph.Basic
import InterfacePlan.ModuleGraph.Record
import InterfacePlan.Path.Basic
import InterfacePlan.Path.Relative
import InterfacePlan.Plan.Basic
import InterfacePlan.Plan.Draft
import InterfacePlan.Plan.Record
import InterfacePlan.Plan.Requests
import InterfacePlan.PlanError
import InterfacePlan.Project.Configuration
import InterfacePlan.Project.LoadError
import InterfacePlan.Project.Manifest
import InterfacePlan.Registry.Basic
import InterfacePlan.Settings.Basic
import InterfacePlan.Sources
import InterfacePlan.Text.Decimal
import InterfacePlan.Text.DigitClass
import InterfacePlan.Text.Split
import InterfacePlan.Toml.Document
import InterfacePlan.Toml.Quoted
import InterfacePlan.Toml.Scalar
import InterfacePlan.Toml.Table
import InterfacePlan.Proofs.Collection.Outcome
import InterfacePlan.Proofs.Digraph.Reachability
import InterfacePlan.Proofs.Import.Resolution
import InterfacePlan.Proofs.Import.Cycles
import InterfacePlan.Proofs.Library.Names
import InterfacePlan.Proofs.ModuleGraph.Contents
import InterfacePlan.Proofs.Library.Answers
import InterfacePlan.Proofs.Plan.Gathering
import InterfacePlan.Proofs.Library.Completion
import InterfacePlan.Proofs.Plan.Feasibility
import InterfacePlan.Proofs.Plan.Accounting
import InterfacePlan.Proofs.Plan.Links
import InterfacePlan.Proofs.Plan.BuildOrder
import InterfacePlan.Proofs.Plan.RequestImports
import InterfacePlan.Proofs.ModuleGraph.Changes
import InterfacePlan.Proofs.ModuleGraph.Integrity
import InterfacePlan.Proofs.ModuleGraph.Reservations
import InterfacePlan.Proofs.Import.Coherence
import InterfacePlan.Proofs.Plan.VndkMembership
import InterfacePlan.Proofs.Plan.Footprint
import InterfacePlan.Proofs.Plan.FrozenVersions
import InterfacePlan.Proofs.ModuleGraph.Persistence
import InterfacePlan.Proofs.Plan.MergeOrder
import InterfacePlan.Proofs.Registry.VersionedNames
import InterfacePlan.Proofs.Data.JsonValue
import InterfacePlan.Proofs.Plan.JsonForm
import InterfacePlan.Proofs.Digraph.FinishOrder
import InterfacePlan.Proofs.Import.CycleReport
import InterfacePlan.Proofs.Import.Table
import InterfacePlan.Proofs.Data.Form
import InterfacePlan.Proofs.Interface.RoundTrip
import InterfacePlan.Proofs.Collection.StrictOrder
import InterfacePlan.Proofs.ModuleGraph.Growth
import InterfacePlan.Proofs.Library.Dispatch
import InterfacePlan.Proofs.Library.StepwiseCompletion
import InterfacePlan.Proofs.Library.CompletionOrder
import InterfacePlan.Proofs.Plan.CompletionFailures
import InterfacePlan.Proofs.ModuleGraph.Union
import InterfacePlan.Proofs.Import.Pinning
import InterfacePlan.Proofs.Interface.Numbering
import InterfacePlan.Proofs.Registry.VndkChoice
import InterfacePlan.Proofs.Plan.SkippedNames
import InterfacePlan.Proofs.Text.Parts
import InterfacePlan.Proofs.Path.Components
import InterfacePlan.Proofs.FileTree.WellFormed
import InterfacePlan.Proofs.FileTree.Following
import InterfacePlan.Proofs.Glob.PlainText
import InterfacePlan.Proofs.Glob.Spelling
import InterfacePlan.Proofs.Glob.PlainWalk
import InterfacePlan.Proofs.Glob.Repetitions
import InterfacePlan.Proofs.Glob.Listing
import InterfacePlan.Proofs.Plan.SkippedSnapshots
import InterfacePlan.Proofs.Registry.Construction
import InterfacePlan.Proofs.Library.KeptLinks
import InterfacePlan.Proofs.Plan.AnalyzerLinks
import InterfacePlan.Proofs.Glob.Descent
import InterfacePlan.Proofs.Path.Relative
import InterfacePlan.Proofs.Glob.Below
import InterfacePlan.Proofs.Plan.SourceTexts
import InterfacePlan.Proofs.PlanError.Layers
import InterfacePlan.Proofs.Import.VersionSuffix
import InterfacePlan.Proofs.Glob.SeveralPatterns
import InterfacePlan.Proofs.Plan.Stems
