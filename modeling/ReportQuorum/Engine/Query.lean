import ReportQuorum.Engine.Basic
import ReportQuorum.Roster.FastLane

/-!
# What an engine tells about itself

## Main definitions

* `Engine.currentFrame`: the frame of the current moment
* `Engine.status`: the agreement on the current frame
* `Engine.memberView`: the current frame as seen by one account
* `Engine.variants`: the reports named for the current frame
-/

namespace ReportQuorum.Engine

variable {π ε : Type}

/-- The agreement on the current frame. -/
structure Status where
  refSlot : Word
  /-- The report that reaches the quorum, or zero. -/
  report : Digest
  isProcessing : Bool
deriving DecidableEq

namespace Status

/-- The names of the fields, in their order. -/
def fieldNames : List String := ["ref_slot", "consensus_report", "is_report_processing"]

instance : JsonForm Status where
  toTree s := .record [
    ("ref_slot", toTree s.refSlot),
    ("consensus_report", toTree s.report),
    ("is_report_processing", toTree s.isProcessing)]
  ofTree? t := do
    let fields ← Json.Fields.ofTree? fieldNames t
    return {
      refSlot := ← fields.required "ref_slot"
      report := ← fields.required "consensus_report"
      isProcessing := ← fields.required "is_report_processing" }

instance : BinaryForm Status where
  toBytes s := toBytes s.refSlot ++ toBytes s.report ++ toBytes s.isProcessing

end Status

/-- The current frame as seen by one account, which need not be a member. -/
structure MemberView where
  refSlot : Word
  /-- The report that reaches the quorum, or zero. -/
  report : Digest
  isMember : Bool
  isFastLane : Bool
  /-- Whether a vote of the account is accepted and counted now. -/
  canReport : Bool
  /-- The reference slot of the last vote of the account. -/
  lastRefSlot : Word
  /-- The vote of the account for the current frame, or zero. -/
  memberReport : Digest
deriving DecidableEq

namespace MemberView

/-- The names of the fields, in their order. -/
def fieldNames : List String :=
  ["current_frame_ref_slot", "current_frame_consensus_report", "is_member", "is_fast_lane",
    "can_report", "last_member_report_ref_slot", "current_frame_member_report"]

instance : JsonForm MemberView where
  toTree v := .record [
    ("current_frame_ref_slot", toTree v.refSlot),
    ("current_frame_consensus_report", toTree v.report),
    ("is_member", toTree v.isMember),
    ("is_fast_lane", toTree v.isFastLane),
    ("can_report", toTree v.canReport),
    ("last_member_report_ref_slot", toTree v.lastRefSlot),
    ("current_frame_member_report", toTree v.memberReport)]
  ofTree? t := do
    let fields ← Json.Fields.ofTree? fieldNames t
    return {
      refSlot := ← fields.required "current_frame_ref_slot"
      report := ← fields.required "current_frame_consensus_report"
      isMember := ← fields.required "is_member"
      isFastLane := ← fields.required "is_fast_lane"
      canReport := ← fields.required "can_report"
      lastRefSlot := ← fields.required "last_member_report_ref_slot"
      memberReport := ← fields.required "current_frame_member_report" }

instance : BinaryForm MemberView where
  toBytes v := toBytes v.refSlot ++ toBytes v.report ++ toBytes v.isMember ++
    toBytes v.isFastLane ++ toBytes v.canReport ++ toBytes v.lastRefSlot ++ toBytes v.memberReport

end MemberView

/-- The frame of the current moment. -/
def currentFrame (e : Engine π) (now : Word) : Except Schedule.Error Frame := e.schedule.frameAt now

/-- The reference slot of the first frame, also before it has begun. -/
def initialRefSlot (e : Engine π) : Word := e.schedule.initialFrame.refSlot

/-- The report that reaches the quorum in a frame, or zero. -/
def leadingReport (e : Engine π) (f : Frame) : Digest :=
  match e.tally.winner f.refSlot e.quorum e.roster with
  | some v => v.report
  | none => Octets.zero

/-- The agreement on the current frame. -/
def status [ReportProcessor π ε] (e : Engine π) (now : Word) : Except Schedule.Error Status := do
  let frame ← e.currentFrame now
  return {
    refSlot := frame.refSlot
    report := e.leadingReport frame
    isProcessing := ReportProcessor.isProcessing e.processor frame.refSlot }

/-- Whether an account is in the fast lane of a frame. -/
def inLane (e : Engine π) (f : Frame) (account : Address) : Bool :=
  match e.roster.indexOf? account with
  | some i => e.roster.isFastLane (UInt64.ofNat i) f.index e.quorum
  | none => false

/-- The current frame as seen by one account. -/
def memberView [ReportProcessor π ε] (e : Engine π) (now : Word) (account : Address) :
    Except Schedule.Error MemberView := do
  let frame ← e.currentFrame now
  let report := e.leadingReport frame
  match e.roster.vote? account with
  | none =>
    return {
      refSlot := frame.refSlot, report, isMember := false, isFastLane := false, canReport := false
      lastRefSlot := 0, memberReport := Octets.zero }
  | some vote =>
    let slot := e.schedule.grid.slotAt now
    let isFastLane := e.inLane frame account
    return {
      refSlot := frame.refSlot, report, isMember := true, isFastLane
      canReport := slot ≤ frame.deadlineSlot
        && !ReportProcessor.isProcessing e.processor frame.refSlot
        && (isFastLane || !e.schedule.inFastLane frame slot)
      lastRefSlot := vote.refSlot
      memberReport := if vote.refSlot = frame.refSlot then vote.report else Octets.zero }

/-- The reports named for the current frame, with the members behind each. -/
def variants (e : Engine π) (now : Word) : Except Schedule.Error (List Variant) := do
  let frame ← e.currentFrame now
  return e.tally.variants frame.refSlot e.roster

/-- The members in the fast lane of the current frame. -/
def fastLaneMembers (e : Engine π) (now : Word) : Except Schedule.Error (List Address) := do
  let frame ← e.currentFrame now
  return e.roster.fastLane frame.index e.quorum

/-- Whether an account is in the fast lane of the current frame. -/
def isFastLaneMember (e : Engine π) (now : Word) (account : Address) :
    Except Schedule.Error Bool := do
  let frame ← e.currentFrame now
  return e.inLane frame account

end ReportQuorum.Engine
