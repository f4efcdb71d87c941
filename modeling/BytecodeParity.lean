import BytecodeParity.ClassRecord.Json
import BytecodeParity.Config.File
import BytecodeParity.Discovery
import BytecodeParity.FileTree.Access
import BytecodeParity.Main
import BytecodeParity.Report.Json
import BytecodeParity.Report.Text
import BytecodeParity.Run
import BytecodeParity.Session
import BytecodeParity.Text.Basic
import BytecodeParity.Text.Utf8
import BytecodeParity.Tool.Plan
import BytecodeParity.Tool.Program
import BytecodeParity.Yaml.Parser
import BytecodeParity.Proofs.ArtifactFiles
import BytecodeParity.Proofs.ArtifactNames
import BytecodeParity.Proofs.ArtifactSlots
import BytecodeParity.Proofs.Attribution
import BytecodeParity.Proofs.BaselineHistory
import BytecodeParity.Proofs.BodyExtents
import BytecodeParity.Proofs.ByteOrder
import BytecodeParity.Proofs.CallPlan
import BytecodeParity.Proofs.ClassFiles
import BytecodeParity.Proofs.ClassGroups
import BytecodeParity.Proofs.ClassIsolation
import BytecodeParity.Proofs.ClassLedger
import BytecodeParity.Proofs.ClassOrder
import BytecodeParity.Proofs.Cleaning
import BytecodeParity.Proofs.DisassemblyView
import BytecodeParity.Proofs.EditShapes
import BytecodeParity.Proofs.FreshArtifacts
import BytecodeParity.Proofs.HaltMark
import BytecodeParity.Proofs.HaltedRun
import BytecodeParity.Proofs.InputStyles
import BytecodeParity.Proofs.JoinedNames
import BytecodeParity.Proofs.KeepGoingReport
import BytecodeParity.Proofs.LineGrammar
import BytecodeParity.Proofs.ListingOrder
import BytecodeParity.Proofs.MemberOrder
import BytecodeParity.Proofs.MissingBodies
import BytecodeParity.Proofs.NarrowedNamespace
import BytecodeParity.Proofs.PairedArtifacts
import BytecodeParity.Proofs.PathSteps
import BytecodeParity.Proofs.PlainTree
import BytecodeParity.Proofs.PlannedRun
import BytecodeParity.Proofs.Printout
import BytecodeParity.Proofs.RecordContents
import BytecodeParity.Proofs.Replay
import BytecodeParity.Proofs.ReportFormat
import BytecodeParity.Proofs.RunStages
import BytecodeParity.Proofs.RunVerdict
import BytecodeParity.Proofs.SingleAttribution
import BytecodeParity.Proofs.SingleRecords
import BytecodeParity.Proofs.SnapshotHistory
import BytecodeParity.Proofs.SortedNames
import BytecodeParity.Proofs.SuccessCoverage
import BytecodeParity.Proofs.TreeFrame
import BytecodeParity.Proofs.TreeRemains
import BytecodeParity.Proofs.Warnings
import BytecodeParity.Proofs.WellFormedTree
import BytecodeParity.Proofs.WholeNames
