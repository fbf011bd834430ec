import ApiLint.Main
import ApiLint.Options.Reading
import ApiLint.Proofs.Diagnostics
import ApiLint.Proofs.Schema.Nodes
import ApiLint.Proofs.Schema.Trees
import ApiLint.Proofs.Schema.Walk
import ApiLint.Proofs.Report.DepthLimit
import ApiLint.Proofs.Document.Reading
import ApiLint.Proofs.Report.Validity
import ApiLint.Proofs.Entries
import ApiLint.Proofs.Json.Tree
import ApiLint.Proofs.Yaml.Completeness
import ApiLint.Proofs.Yaml.Plain
import ApiLint.Proofs.Yaml.Precedence
import ApiLint.Proofs.Document.Reordering
import ApiLint.Proofs.Report.KeyOrder
import ApiLint.Proofs.Report.Advice
import ApiLint.Proofs.Report.Independence
import ApiLint.Proofs.Report.Warnings
import ApiLint.Proofs.Json.Deletion
import ApiLint.Proofs.Schema.Deletion
import ApiLint.Proofs.Document.Deletion
import ApiLint.Proofs.Report.UnreadKeys
import ApiLint.Proofs.Report.Counts
import ApiLint.Proofs.Report.Presence
import ApiLint.Proofs.Report.WrittenOrder
import ApiLint.Proofs.Yaml.KeyTexts
import ApiLint.Proofs.Document.Listing
import ApiLint.Proofs.Document.Split
import ApiLint.Proofs.Report.TagDifference
import ApiLint.Proofs.Stats.Contents
import ApiLint.Proofs.Report.PathItems
import ApiLint.Proofs.Json.Nesting
import ApiLint.Proofs.Json.Written
import ApiLint.Proofs.Yaml.Nesting
import ApiLint.Proofs.Report.SchemaFindings
import ApiLint.Proofs.Report.SchemaDepth
import ApiLint.Proofs.Text
import ApiLint.Proofs.Schema.Paths
import ApiLint.Proofs.Schema.DistinctPaths
import ApiLint.Proofs.Files.Names
import ApiLint.Proofs.Text.Octets
import ApiLint.Proofs.Files.Discovery
import ApiLint.Proofs.Report.Text
import ApiLint.Proofs.Report.Shown
import ApiLint.Proofs.Report.Version
import ApiLint.Proofs.Files.Formats
import ApiLint.Proofs.CommandLine.Validation
