import ReportQuorum.Word
import ReportQuorum.Hex
import ReportQuorum.Octets
import ReportQuorum.Blake3
import ReportQuorum.Decimal
import ReportQuorum.Json.Tree
import ReportQuorum.Json.Token
import ReportQuorum.Json.Context
import ReportQuorum.Json.Printer
import ReportQuorum.Binary
import ReportQuorum.Payload
import ReportQuorum.Json.Record
import ReportQuorum.TimeGrid
import ReportQuorum.Schedule
import ReportQuorum.RoleTable
import ReportQuorum.Quorum
import ReportQuorum.Roster.FastLane
import ReportQuorum.Tally
import ReportQuorum.Engine.Operations
import ReportQuorum.Engine.Query
import ReportQuorum.Engine.Command
import ReportQuorum.Oracle.Command
import ReportQuorum.Recorder
import ReportQuorum.Simulation
import ReportQuorum.CommandLine.Arguments
import ReportQuorum.CommandLine.Run
import ReportQuorum.Main
import ReportQuorum.Proofs.HexTexts
import ReportQuorum.Proofs.Encoding
import ReportQuorum.Proofs.PayloadEncoding
import ReportQuorum.Proofs.Settlement
import ReportQuorum.Proofs.Calls
import ReportQuorum.Proofs.Frames
import ReportQuorum.Proofs.OracleCalls
import ReportQuorum.Proofs.Mirror
import ReportQuorum.Proofs.Plays
import ReportQuorum.Proofs.Runs
import ReportQuorum.Proofs.Seats
import ReportQuorum.Proofs.RosterChanges
import ReportQuorum.Proofs.RosterColumns
import ReportQuorum.Proofs.FastLanes
import ReportQuorum.Proofs.Majority
import ReportQuorum.Proofs.OracleLife
import ReportQuorum.Proofs.Service
import ReportQuorum.Proofs.SharedDeadlines
import ReportQuorum.Proofs.Reopening
import ReportQuorum.Proofs.Replacement
import ReportQuorum.Proofs.Coverage
import ReportQuorum.Proofs.FrameSpan
import ReportQuorum.Proofs.FrameTiling
import ReportQuorum.Proofs.Replanning
import ReportQuorum.Proofs.Exactness
import ReportQuorum.Proofs.Upkeep
import ReportQuorum.Proofs.Histories
import ReportQuorum.Proofs.HeldMajority
import ReportQuorum.Proofs.PendingReports
import ReportQuorum.Proofs.ProcessingStart
import ReportQuorum.Proofs.Refusals
import ReportQuorum.Proofs.DroppedReports
import ReportQuorum.Proofs.Rejections
import ReportQuorum.Proofs.WriteByWrite
import ReportQuorum.Proofs.Rollback
import ReportQuorum.Proofs.OracleRuns
import ReportQuorum.Proofs.SlotAccounts
import ReportQuorum.Proofs.Exchanges
import ReportQuorum.Proofs.Handshake
import ReportQuorum.Proofs.LockedSlots
import ReportQuorum.Proofs.Acceptance
import ReportQuorum.Proofs.Activation
import ReportQuorum.Proofs.VotingRights
import ReportQuorum.Proofs.VoteOrder
import ReportQuorum.Proofs.RoleOrder
import ReportQuorum.Proofs.EngineReplay
import ReportQuorum.Proofs.EventReplay
import ReportQuorum.Proofs.Authority
import ReportQuorum.Proofs.SameQuorum
import ReportQuorum.Proofs.Disabling
import ReportQuorum.Proofs.StartedSlots
import ReportQuorum.Proofs.ClockRange
import ReportQuorum.Proofs.RecordEncoding
import ReportQuorum.Proofs.JsonStrings
import ReportQuorum.Proofs.JsonNumbers
import ReportQuorum.Proofs.JsonTokens
import ReportQuorum.Proofs.JsonTrees
import ReportQuorum.Proofs.JsonPrinting
import ReportQuorum.Proofs.SavedFiles
import ReportQuorum.Proofs.PayloadLayout
import ReportQuorum.Proofs.RepeatedReplanning
import ReportQuorum.Proofs.NewNodes
import ReportQuorum.Proofs.AcceptedData
import ReportQuorum.Proofs.LanePositions
import ReportQuorum.Proofs.DormantEngines
import ReportQuorum.Proofs.DefaultStart
