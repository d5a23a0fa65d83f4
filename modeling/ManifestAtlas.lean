import ManifestAtlas.CommandLine.Run
import ManifestAtlas.Main
import ManifestAtlas.Proofs.AliasCalls
import ManifestAtlas.Proofs.AnnouncedLists
import ManifestAtlas.Proofs.CatalogRows
import ManifestAtlas.Proofs.CleanLint
import ManifestAtlas.Proofs.CodeSpans
import ManifestAtlas.Proofs.ColourErasure
import ManifestAtlas.Proofs.ConfigSettings
import ManifestAtlas.Proofs.CycleNotes
import ManifestAtlas.Proofs.DependencyCycles
import ManifestAtlas.Proofs.DependencyEdges
import ManifestAtlas.Proofs.DependencyLines
import ManifestAtlas.Proofs.DiskChanges
import ManifestAtlas.Proofs.EntryPaths
import ManifestAtlas.Proofs.EscapeLaws
import ManifestAtlas.Proofs.FailurePositions
import ManifestAtlas.Proofs.FindingTexts
import ManifestAtlas.Proofs.FlowReading
import ManifestAtlas.Proofs.FlowchartLines
import ManifestAtlas.Proofs.FlowchartPath
import ManifestAtlas.Proofs.FollowedPaths
import ManifestAtlas.Proofs.FormatEditing
import ManifestAtlas.Proofs.FormatFitting
import ManifestAtlas.Proofs.FormatMeaning
import ManifestAtlas.Proofs.FormatReading
import ManifestAtlas.Proofs.FormatWriting
import ManifestAtlas.Proofs.FoundManifests
import ManifestAtlas.Proofs.IndexShapes
import ManifestAtlas.Proofs.InlineLists
import ManifestAtlas.Proofs.JoinedPaths
import ManifestAtlas.Proofs.JsonReading
import ManifestAtlas.Proofs.JsonScanning
import ManifestAtlas.Proofs.JsonSkipping
import ManifestAtlas.Proofs.JsonValues
import ManifestAtlas.Proofs.LabelEscapes
import ManifestAtlas.Proofs.LineBreaks
import ManifestAtlas.Proofs.LineCalls
import ManifestAtlas.Proofs.LintVerdict
import ManifestAtlas.Proofs.LintedDiagrams
import ManifestAtlas.Proofs.ListingLines
import ManifestAtlas.Proofs.LoadedConfigs
import ManifestAtlas.Proofs.Lookups
import ManifestAtlas.Proofs.ManifestAcceptance
import ManifestAtlas.Proofs.ManifestResolution
import ManifestAtlas.Proofs.ManifestRoundTrip
import ManifestAtlas.Proofs.ManifestTexts
import ManifestAtlas.Proofs.NodeCollisions
import ManifestAtlas.Proofs.OutlineCounts
import ManifestAtlas.Proofs.OutlineLines
import ManifestAtlas.Proofs.OutlineScopes
import ManifestAtlas.Proofs.OutlineShape
import ManifestAtlas.Proofs.OutlineTexts
import ManifestAtlas.Proofs.PathOrder
import ManifestAtlas.Proofs.ProperTrees
import ManifestAtlas.Proofs.QuietCommands
import ManifestAtlas.Proofs.QuietReadings
import ManifestAtlas.Proofs.RenderedPaths
import ManifestAtlas.Proofs.RepeatedFindings
import ManifestAtlas.Proofs.ReportParts
import ManifestAtlas.Proofs.ReportedOnce
import ManifestAtlas.Proofs.ReportedRules
import ManifestAtlas.Proofs.SeenTexts
import ManifestAtlas.Proofs.SelectedDiagrams
import ManifestAtlas.Proofs.SharedNodes
import ManifestAtlas.Proofs.ShownLists
import ManifestAtlas.Proofs.StateDrafts
import ManifestAtlas.Proofs.StateLines
import ManifestAtlas.Proofs.StepOrder
import ManifestAtlas.Proofs.Suggestions
import ManifestAtlas.Proofs.SwitchArguments
import ManifestAtlas.Proofs.SwitchedRuns
import ManifestAtlas.Proofs.UpwardSearch
import ManifestAtlas.Proofs.WrittenDiagrams
import ManifestAtlas.Proofs.WrittenFiles
