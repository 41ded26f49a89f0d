import StagedEdits.Check.Compiler
import StagedEdits.Check.Report
import StagedEdits.Check.Retry
import StagedEdits.Commit.Commit
import StagedEdits.Commit.Stage
import StagedEdits.Directive
import StagedEdits.Disk.Basic
import StagedEdits.Disk.Fault
import StagedEdits.Disk.Listing
import StagedEdits.Disk.Operation
import StagedEdits.Disk.Walk
import StagedEdits.Fault
import StagedEdits.Journal
import StagedEdits.Json
import StagedEdits.Json.Lenient
import StagedEdits.Json.Reader
import StagedEdits.Json.Token
import StagedEdits.Number.Binary64
import StagedEdits.Number.Reading
import StagedEdits.Overlay.Applier
import StagedEdits.Overlay.Base
import StagedEdits.Overlay.Basic
import StagedEdits.Path.FilePath
import StagedEdits.Path.Guard
import StagedEdits.Path.SessionId
import StagedEdits.Problem
import StagedEdits.Proofs.AppliedLog
import StagedEdits.Proofs.BatchCuts
import StagedEdits.Proofs.BatchOutcome
import StagedEdits.Proofs.CancelRequest
import StagedEdits.Proofs.CheckCalls
import StagedEdits.Proofs.CheckedTree
import StagedEdits.Proofs.Chunking
import StagedEdits.Proofs.CleanTurn
import StagedEdits.Proofs.ClosedTag
import StagedEdits.Proofs.CommitAttempts
import StagedEdits.Proofs.CommitFrame
import StagedEdits.Proofs.CommitPlaces
import StagedEdits.Proofs.CommitRealised
import StagedEdits.Proofs.CommitRollBack
import StagedEdits.Proofs.CommitSnapshot
import StagedEdits.Proofs.CommitStaging
import StagedEdits.Proofs.CommitSwap
import StagedEdits.Proofs.CompleteRecord
import StagedEdits.Proofs.DigestText
import StagedEdits.Proofs.EventDelivery
import StagedEdits.Proofs.FanOut
import StagedEdits.Proofs.FileMap
import StagedEdits.Proofs.GrownText
import StagedEdits.Proofs.GuardedPaths
import StagedEdits.Proofs.IndependentEdits
import StagedEdits.Proofs.ListenerStay
import StagedEdits.Proofs.NormalPath
import StagedEdits.Proofs.OverlappingCommits
import StagedEdits.Proofs.OverlayLayers
import StagedEdits.Proofs.ParserGrowth
import StagedEdits.Proofs.PassBounds
import StagedEdits.Proofs.PathCells
import StagedEdits.Proofs.PathGuard
import StagedEdits.Proofs.Pieces
import StagedEdits.Proofs.PlainDisk
import StagedEdits.Proofs.PrintedReport
import StagedEdits.Proofs.ReadFindings
import StagedEdits.Proofs.RenamedFile
import StagedEdits.Proofs.RepairLoop
import StagedEdits.Proofs.RepairPrompts
import StagedEdits.Proofs.ReportedProblems
import StagedEdits.Proofs.RetryLaw
import StagedEdits.Proofs.Segments
import StagedEdits.Proofs.SessionDirectory
import StagedEdits.Proofs.SessionEnds
import StagedEdits.Proofs.SessionLifecycle
import StagedEdits.Proofs.StableOrder
import StagedEdits.Proofs.StreamCuts
import StagedEdits.Proofs.StreamReading
import StagedEdits.Proofs.TagGrammar
import StagedEdits.Proofs.TagPlaces
import StagedEdits.Proofs.TurnCourse
import StagedEdits.Proofs.TurnLedger
import StagedEdits.Proofs.TurnOutcome
import StagedEdits.Proofs.TurnProtocol
import StagedEdits.Proofs.TurnReports
import StagedEdits.Proofs.TurnRun
import StagedEdits.Proofs.UnreadableHead
import StagedEdits.Proofs.WriteBody
import StagedEdits.Repair.Budget
import StagedEdits.Repair.Digest
import StagedEdits.Service.Exchange
import StagedEdits.Service.Hub
import StagedEdits.Service.Registry
import StagedEdits.Service.Rehearsal
import StagedEdits.Service.Request
import StagedEdits.Service.Route
import StagedEdits.Service.Server
import StagedEdits.Settings
import StagedEdits.Store.Names
import StagedEdits.Store.Table
import StagedEdits.Tag.Attribute
import StagedEdits.Tag.Fence
import StagedEdits.Tag.Parser
import StagedEdits.Text.Ascii
import StagedEdits.Text.Blank
import StagedEdits.Text.CharRef
import StagedEdits.Text.Digit
import StagedEdits.Text.Lines
import StagedEdits.Text.Printable
import StagedEdits.Text.Quoted
import StagedEdits.Text.Ranges
import StagedEdits.Text.Search
import StagedEdits.Text.Units
import StagedEdits.Text.Utf8
import StagedEdits.Text.Wide
import StagedEdits.Text.WordChar
import StagedEdits.Turn.Channel
import StagedEdits.Turn.Commit
import StagedEdits.Turn.Event
import StagedEdits.Turn.Machine
import StagedEdits.Turn.Rehearsal
import StagedEdits.Turn.Script
import StagedEdits.Turn.Status
