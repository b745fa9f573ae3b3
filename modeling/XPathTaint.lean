import XPathTaint.Text.WordChars
import XPathTaint.Text.LowerCase
import XPathTaint.Text.Quoted
import XPathTaint.Text.Lines
import XPathTaint.Facts.FileFacts
import XPathTaint.Json.Reader
import XPathTaint.Json.Printer
import XPathTaint.Json.Record
import XPathTaint.Facts.Format
import XPathTaint.Python.Layout
import XPathTaint.Python.Statement
import XPathTaint.Python.Imports
import XPathTaint.Python.Lowering
import XPathTaint.Python.Source
import XPathTaint.Taint.Flow
import XPathTaint.Sink.Match
import XPathTaint.Finding.Analysis
import XPathTaint.Report.Format
import XPathTaint.Files.Exclusion
import XPathTaint.Files.Walk
import XPathTaint.Scan.Read
import XPathTaint.Environment
import XPathTaint.Yaml.Scalar
import XPathTaint.Yaml.Token
import XPathTaint.Yaml.Value
import XPathTaint.Text.Double
import XPathTaint.Toml.Reader
import XPathTaint.Registry.CatalogFile
import XPathTaint.Finding.BaselineFile
import XPathTaint.Scan.Preferences
import XPathTaint.Scan.Run
import XPathTaint.Command.Run
import XPathTaint.Main
import XPathTaint.Proofs.ForwardFlow
import XPathTaint.Proofs.RecordedCalls
import XPathTaint.Proofs.ReportedFindings
import XPathTaint.Proofs.BindingChains
import XPathTaint.Proofs.FlowChains
import XPathTaint.Proofs.ReceiverChains
import XPathTaint.Proofs.ScopeSeparation
import XPathTaint.Proofs.RegistryOrder
import XPathTaint.Proofs.HopBudgets
import XPathTaint.Proofs.BlockPaths
import XPathTaint.Proofs.BindingsInTime
import XPathTaint.Proofs.OwnValues
import XPathTaint.Proofs.SimultaneousBindings
import XPathTaint.Proofs.UnhiddenBindings
import XPathTaint.Proofs.KnownFindings
import XPathTaint.Proofs.ScanTwice
import XPathTaint.Proofs.RegistryGrowth
import XPathTaint.Proofs.LibraryNames
import XPathTaint.Proofs.FactsText
import XPathTaint.Proofs.ReportText
import XPathTaint.Proofs.SinkPlaces
import XPathTaint.Proofs.Sanitizers
import XPathTaint.Proofs.ScanPlaces
import XPathTaint.Proofs.ScopeTable
import XPathTaint.Proofs.SilencedLines
import XPathTaint.Proofs.OptionKeywords
import XPathTaint.Proofs.RequestSources
import XPathTaint.Proofs.Rebinding
import XPathTaint.Proofs.Unpacking
import XPathTaint.Proofs.ImportedNames
import XPathTaint.Proofs.GlobMeaning
import XPathTaint.Proofs.FactNodes
import XPathTaint.Proofs.RecordedFacts
import XPathTaint.Proofs.FactPlaces
import XPathTaint.Proofs.FactIds
import XPathTaint.Proofs.RouteTags
import XPathTaint.Proofs.GlobSeparators
import XPathTaint.Proofs.FileVisits
import XPathTaint.Proofs.CatalogMerging
import XPathTaint.Proofs.CatalogNames
import XPathTaint.Proofs.AliasChains
import XPathTaint.Proofs.SearchBounds
import XPathTaint.Proofs.SessionCounts
import XPathTaint.Proofs.ScanCounts
