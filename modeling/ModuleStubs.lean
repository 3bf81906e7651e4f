import ModuleStubs.Main
import ModuleStubs.Tool.Query
import ModuleStubs.Proofs.Extraction.WellFormed
import ModuleStubs.Proofs.Project.Isolation
import ModuleStubs.Proofs.Source.Spans
import ModuleStubs.Proofs.Stub.Overwriting
import ModuleStubs.Proofs.Extraction.Account
import ModuleStubs.Proofs.Tool.Memory
import ModuleStubs.Proofs.Extraction.Classification
import ModuleStubs.Proofs.Run.Account
import ModuleStubs.Proofs.Project.Faults
import ModuleStubs.Proofs.Settings.Faults
import ModuleStubs.Proofs.Stub.Aliases
import ModuleStubs.Stub.Reader
import ModuleStubs.Proofs.Stub.Reading
import ModuleStubs.Proofs.Json.Escapes
import ModuleStubs.Proofs.Json.RoundTrip
import ModuleStubs.Definition.Reader
import ModuleStubs.Proofs.Definition.Types
import ModuleStubs.Proofs.Definition.RoundTrip
import ModuleStubs.Proofs.Extraction.Origin
import ModuleStubs.Proofs.Project.Origin
import ModuleStubs.Proofs.CommandLine.Structure
import ModuleStubs.Proofs.Log.Opening
import ModuleStubs.Proofs.Stub.Handing
import ModuleStubs.Proofs.CommandLine.DryRun
import ModuleStubs.Proofs.Extraction.RootSearch
import ModuleStubs.Proofs.Extraction.Lookups
import ModuleStubs.Proofs.Disk.Alike
import ModuleStubs.Proofs.Disk.MakeDirectories
import ModuleStubs.Proofs.Stub.Repetition
import ModuleStubs.Proofs.Discovery.Sources
import ModuleStubs.Proofs.Project.Repetition
import ModuleStubs.Proofs.Extraction.Independence
import ModuleStubs.Proofs.Extraction.FirstView
import ModuleStubs.Proofs.Extraction.ClosureParameters
import ModuleStubs.Proofs.Yaml.QuotedText
import ModuleStubs.Proofs.Yaml.Words
import ModuleStubs.Proofs.Yaml.Lines
import ModuleStubs.Proofs.Yaml.Fields
import ModuleStubs.Proofs.Yaml.WholeNumber
import ModuleStubs.Proofs.Tool.Query
import ModuleStubs.Proofs.Definition.Layers
import ModuleStubs.Proofs.Stub.ParameterNames
import ModuleStubs.Proofs.Text.LenientDecoding
import ModuleStubs.Proofs.Source.Slices
import ModuleStubs.Proofs.Tool.Markup
import ModuleStubs.Proofs.Stub.AliasWarnings
import ModuleStubs.Proofs.Stub.ReturnValues
import ModuleStubs.Proofs.Disk.Ways
import ModuleStubs.Proofs.Stub.Refusals
import ModuleStubs.Proofs.Stub.Confinement
import ModuleStubs.Proofs.Discovery.Exclusion
import ModuleStubs.Proofs.Disk.Tree
import ModuleStubs.Proofs.Discovery.Glob
import ModuleStubs.Proofs.Discovery.SortedSources
import ModuleStubs.Proofs.Project.SkippedFiles
import ModuleStubs.Proofs.Settings.Usable
import ModuleStubs.Log.Logger
import ModuleStubs.Proofs.Structure.Narrowing
import ModuleStubs.Proofs.Log.Routing
