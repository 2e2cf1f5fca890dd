import SolidityBuild.Build.Project
import SolidityBuild.Build.Workshop
import SolidityBuild.Main
import SolidityBuild.Proofs.Json.NumberText
import SolidityBuild.Proofs.Json.QuotedText
import SolidityBuild.Proofs.Json.WellFormed
import SolidityBuild.Proofs.Json.RoundTrip
import SolidityBuild.Proofs.Json.VisibleText
import SolidityBuild.Proofs.Json.Reading
import SolidityBuild.Proofs.Json.KeyOrder
import SolidityBuild.Proofs.Text.Utf8
import SolidityBuild.Proofs.Cache.Key
import SolidityBuild.Proofs.Schema.Decoder
import SolidityBuild.Proofs.Json.Finite
import SolidityBuild.Proofs.Json.LooseEquality
import SolidityBuild.Proofs.Settings
import SolidityBuild.Proofs.Document.CompileRequest
import SolidityBuild.Proofs.Narrated
import SolidityBuild.Proofs.Build.Session
import SolidityBuild.Proofs.Cache.Memory
import SolidityBuild.Proofs.Build.Remembering
import SolidityBuild.Proofs.Build.StoreInvariant
import SolidityBuild.Proofs.Build.AtMostOnce
import SolidityBuild.Proofs.Compilation.Merged
import SolidityBuild.Proofs.Compilation.Analysis
import SolidityBuild.Proofs.Document.CompileReport
import SolidityBuild.Proofs.Compilation.Normalized
import SolidityBuild.Proofs.Compilation.Refusals
import SolidityBuild.Proofs.Compilation.Precedence
import SolidityBuild.Proofs.Build.Repetition
import SolidityBuild.Proofs.Tools.Commands
import SolidityBuild.Proofs.Build.Requested
import SolidityBuild.Proofs.Build.Step
import SolidityBuild.Proofs.Build.Interference
import SolidityBuild.Proofs.Build.Outcomes
import SolidityBuild.Proofs.Build.Interleaving
import SolidityBuild.Proofs.Files.Trees
import SolidityBuild.Proofs.Files.Leading
import SolidityBuild.Proofs.Files.Changing
import SolidityBuild.Proofs.Files.Vacant
import SolidityBuild.Proofs.Files.Resolving
import SolidityBuild.Proofs.Files.Lasting
import SolidityBuild.Proofs.Project.Sources
import SolidityBuild.Proofs.Tools.Frameworks
import SolidityBuild.Proofs.Cache.Folder
import SolidityBuild.Proofs.Cache.Nested
import SolidityBuild.Proofs.Build.Interchange
import SolidityBuild.Proofs.Build.Stores
import SolidityBuild.Proofs.Build.Courses
import SolidityBuild.Proofs.Build.WorkshopStores
import SolidityBuild.Proofs.Build.Rebuilding
import SolidityBuild.Proofs.Document.Rereading
import SolidityBuild.Proofs.Build.Reproduction
import SolidityBuild.Proofs.CommandLine.Building
import SolidityBuild.Proofs.CommandLine.Rebuild
import SolidityBuild.Proofs.Compilation.Postprocessing
import SolidityBuild.Proofs.Artifact.Extraction
import SolidityBuild.Proofs.Build.Conduct
import SolidityBuild.Proofs.Build.Records
import SolidityBuild.Proofs.Build.FolderBuilds
import SolidityBuild.Proofs.Settings.Coverage
import SolidityBuild.Proofs.Compilation.SourceTexts
import SolidityBuild.Proofs.Tools.Plans
import SolidityBuild.Proofs.Tools.Failing
import SolidityBuild.Proofs.Cache.Reading
import SolidityBuild.Proofs.CommandLine.CorruptEntries
import SolidityBuild.Proofs.Files.NullPaths
import SolidityBuild.Proofs.Cache.Writing
import SolidityBuild.Proofs.Schema.Acceptance
import SolidityBuild.Proofs.Schema.Faithful
import SolidityBuild.Proofs.Document.ReportRereading
import SolidityBuild.Proofs.Document.RequestDocuments
import SolidityBuild.Proofs.Document.ReportDocuments
import SolidityBuild.Proofs.Files.Listing
import SolidityBuild.Proofs.Tools.RecordFolders
import SolidityBuild.Proofs.Project.Unreadable
import SolidityBuild.Proofs.Build.Late
import SolidityBuild.Proofs.Build.EarlyFailures
import SolidityBuild.Proofs.Project.SourceFiles
import SolidityBuild.Proofs.Project.Detected
import SolidityBuild.Proofs.Yaml.DocumentFaults
import SolidityBuild.Proofs.CommandLine.BrokenConfig
import SolidityBuild.Proofs.Compilation.BundleDocuments
import SolidityBuild.Proofs.Cache.Confined
import SolidityBuild.Proofs.Build.Yields
import SolidityBuild.Proofs.CommandLine.Output
import SolidityBuild.Proofs.Text.Runs
import SolidityBuild.Proofs.Version.Scanning
import SolidityBuild.Proofs.Version.LongForm
import SolidityBuild.Proofs.Text.Lines
import SolidityBuild.Proofs.Project.Remappings
import SolidityBuild.Proofs.Text.Surrogates
import SolidityBuild.Proofs.Build.Results
