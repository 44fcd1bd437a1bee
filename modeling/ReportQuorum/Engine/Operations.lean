import ReportQuorum.Engine.Settlement
import ReportQuorum.Roster.FastLane

/-!
# The calls of an engine

Every call is made by somebody, may need a role, and is done as a whole or not at all: a call that
is refused leaves the engine as it was, including its events. The processor alone may have seen part
of a call that was refused half-way.

Calls are taken to be atomic. No call begins before the one before it has ended, and the clock
stands still during a call: the moment that a call takes as `now` is the one that it and its
processor see wherever they look at the clock. Between two calls the clock may move in any way.

## Main definitions

* `Engine.grantRole`, `Engine.revokeRole`: changes of the role table
* `Engine.updateInitialEpoch`, `Engine.setFrameConfig`, `Engine.setFastLane`: changes of the schedule
* `Engine.addMember`, `Engine.removeMember`, `Engine.setQuorum`: changes of the committee
* `Engine.submitReport`: a vote
* `Engine.setReportProcessor`: another processor
-/

namespace ReportQuorum.Engine

variable {π ε : Type}

/-- Demands that the caller of a call holds a role. -/
def demand (e : Engine π) (role : Role) (caller : Address) : Except (Error ε) Unit :=
  (e.roles.check role caller).mapError .missingRole

/-! ### Roles -/

/-- Grants a role on behalf of a holder of the default admin role. -/
def grantRole (e : Engine π) (caller : Address) (role : Role) (account : Address) :
    Reply (Error ε) (Engine π) Unit :=
  .ofExcept e do
    let (roles, changed) ← (e.roles.grant caller role account).mapError .missingRole
    return { e with roles }.emitIf changed (.roleGranted role account caller)

/-- Revokes a role on behalf of a holder of the default admin role. -/
def revokeRole (e : Engine π) (caller : Address) (role : Role) (account : Address) :
    Reply (Error ε) (Engine π) Unit :=
  .ofExcept e do
    let (roles, changed) ← (e.roles.revoke caller role account).mapError .missingRole
    return { e with roles }.emitIf changed (.roleRevoked role account caller)

/-! ### Schedule -/

/-- Moves the initial epoch, as long as it has not come. The first reference slot must not be one
that the processor has passed. -/
def updateInitialEpoch [ReportProcessor π ε] (e : Engine π) (now : Word) (caller : Address)
    (initialEpoch : Word) : Reply (Error ε) (Engine π) Unit :=
  .ofExcept e do
    e.demand .defaultAdmin caller
    let (schedule, changed) ← (e.schedule.setInitialEpoch now initialEpoch).mapError .schedule
    if schedule.initialFrame.refSlot < ReportProcessor.processingSlot e.processor then
      throw .initialSlotPassed
    return { e with schedule }.emitIf changed (frameConfigEvent schedule)

/-- Changes the lengths of frames and fast lane. -/
def setFrameConfig (e : Engine π) (now : Word) (caller : Address)
    (epochsPerFrame fastLaneSlots : Word) : Reply (Error ε) (Engine π) Unit :=
  .ofExcept e do
    e.demand .manageFrameConfig caller
    let (schedule, change) ←
      (e.schedule.reconfigure now epochsPerFrame fastLaneSlots).mapError .schedule
    return { e with schedule }
      |>.emitIf change.frames (frameConfigEvent schedule)
      |>.emitIf change.fastLane (.fastLaneConfigSet fastLaneSlots)

/-- Changes the length of the fast lane. -/
def setFastLane (e : Engine π) (caller : Address) (fastLaneSlots : Word) :
    Reply (Error ε) (Engine π) Unit :=
  .ofExcept e do
    e.demand .manageFastLaneConfig caller
    let (schedule, changed) ← (e.schedule.setFastLane fastLaneSlots).mapError .schedule
    return { e with schedule }.emitIf changed (.fastLaneConfigSet fastLaneSlots)

/-! ### Committee -/

/-- The role that setting a quorum needs. -/
def quorumRole (quorum : Word) : Role :=
  if quorum = Quorum.unreachable then .disableConsensus else .manageMembersAndQuorum

/-- The engine with a quorum that must be a strict majority of its members. Only a quorum that
differs from the old one needs a role. -/
def withQuorum (e : Engine π) (caller : Address) (quorum : Word) :
    Except (Error ε) (Engine π) := do
  (Quorum.check quorum e.roster.count).mapError .quorum
  if quorum = e.quorum then return e
  e.demand (quorumRole quorum) caller
  return { e with quorum }.emit (.quorumSet quorum e.roster.count e.quorum)

/-- Makes a change of the committee and settles the votes after it. -/
def reform [ReportProcessor π ε] (e : Engine π) (now : Word)
    (change : Except (Error ε) (Engine π)) : Reply (Error ε) (Engine π) Unit :=
  match change with
  | .error err => ⟨.error err, e⟩
  | .ok e' => e.restoreOnError (e'.settleIfActive now)

/-- Seats a member and sets the quorum. -/
def addMember [ReportProcessor π ε] (e : Engine π) (now : Word) (caller member : Address)
    (quorum : Word) : Reply (Error ε) (Engine π) Unit :=
  e.reform now do
    e.demand .manageMembersAndQuorum caller
    let roster ← (e.roster.insert member).mapError .roster
    { e with roster }.emit (.memberAdded member roster.count quorum) |>.withQuorum caller quorum

/-- Takes a member's seat away and sets the quorum. -/
def removeMember [ReportProcessor π ε] (e : Engine π) (now : Word) (caller member : Address)
    (quorum : Word) : Reply (Error ε) (Engine π) Unit :=
  e.reform now do
    e.demand .manageMembersAndQuorum caller
    let (roster, _) ← (e.roster.remove member).mapError .roster
    { e with roster }.emit (.memberRemoved member roster.count quorum) |>.withQuorum caller quorum

/-- Sets the quorum. -/
def setQuorum [ReportProcessor π ε] (e : Engine π) (now : Word) (caller : Address)
    (quorum : Word) : Reply (Error ε) (Engine π) Unit :=
  e.reform now (e.withQuorum caller quorum)

/-- Sets the quorum that no committee reaches. -/
def disableConsensus [ReportProcessor π ε] (e : Engine π) (now : Word) (caller : Address) :
    Reply (Error ε) (Engine π) Unit :=
  e.setQuorum now caller Quorum.unreachable

/-! ### Votes -/

/-- What becomes of a vote that is not refused. -/
inductive Admission where
  /-- It is recorded, and the votes are settled. -/
  | counted
  /-- It is recorded only, since the report of the frame is being processed. -/
  | late
deriving DecidableEq

/-- Whether a vote is accepted. The faults of a vote are looked for in a fixed order; whether the
sender has voted before comes last. -/
def judge [ReportProcessor π ε] (e : Engine π) (now : Word) (sender : Address) (vote : Vote)
    (version : Word) : Except (Error ε) Admission :=
  match e.roster.indexOf? sender with
  | none => .error (.roster (.nonMember sender))
  | some i =>
    match e.schedule.frameAt now with
    | .error cause => .error (.schedule cause)
    | .ok frame =>
      let expected := ReportProcessor.version e.processor
      let slot := e.schedule.grid.slotAt now
      let previous := (e.roster.vote? sender).getD Vote.blank
      if version ≠ expected then .error (.wrongVersion expected version)
      else if vote.refSlot ≠ frame.refSlot then .error (.wrongSlot vote.refSlot frame.refSlot)
      else if frame.deadlineSlot < slot then .error (.staleReport frame.deadlineSlot)
      else if e.schedule.inFastLane frame slot
          && !e.roster.isFastLane (UInt64.ofNat i) frame.index e.quorum then
        .error .notInFastLane
      else if vote.report.isZero then .error .emptyReport
      -- A late vote is only refused to somebody who has voted for this slot before.
      else if ReportProcessor.isProcessing e.processor vote.refSlot then
        if previous.refSlot = vote.refSlot then .error .alreadyProcessing else .ok .late
      else if previous = vote then .error .duplicateReport
      else .ok .counted

/-- Records a vote in the roster and the tally. -/
def recordVote (e : Engine π) (sender : Address) (vote : Vote) : Engine π :=
  { e with
    roster := e.roster.record sender vote
    tally := e.tally.record vote }.emit (.reportReceived vote.refSlot sender vote.report)

/-- A member votes for a report. -/
def submitReport [ReportProcessor π ε] (e : Engine π) (now : Word) (sender : Address) (vote : Vote)
    (version : Word) : Reply (Error ε) (Engine π) Unit :=
  match e.judge now sender vote version with
  | .error err => ⟨.error err, e⟩
  | .ok .late => ⟨.ok (), e.recordVote sender vote⟩
  | .ok .counted => e.restoreOnError ((e.recordVote sender vote).settle now)

/-! ### Processor -/

/-- The agreed report that a new processor has to be given: that of the current frame, before its
deadline, unless one of the two processors has started to process it. -/
def outstanding [ReportProcessor π ε] (e : Engine π) (now : Word) (p : π) :
    Option (Frame × Digest) :=
  match e.schedule.frameAt now with
  | .error _ => none
  | .ok frame =>
    match e.tally.agreedFor frame.refSlot with
    | none => none
    | some report =>
      -- The old processor's mark counts here, not what it would answer.
      if frame.refSlot ≤ ReportProcessor.processingSlot e.processor
          || ReportProcessor.isProcessing p frame.refSlot then none
      else if frame.deadlineSlot < e.schedule.grid.slotAt now then none
      else some (frame, report)

/-- Gives a new processor the report that it has to be given. -/
def handOver [ReportProcessor π ε] (e : Engine π) (now : Word) (p : π) : Reply (Error ε) π Unit :=
  match e.outstanding now p with
  | none => ⟨.ok (), p⟩
  | some (frame, report) =>
    (ReportProcessor.submit p now e.address report frame.refSlot
      (e.schedule.deadlineTime frame)).map .processor id

/-- Replaces the processor. The answer is the one that was replaced. -/
def setReportProcessor [ReportProcessor π ε] (e : Engine π) (now : Word) (caller : Address)
    (p : π) : Reply (Error ε) (Engine π) π :=
  match e.demand .manageReportProcessor caller with
  | .error err => ⟨.error err, e⟩
  | .ok () =>
    let new := ReportProcessor.address p
    let old := ReportProcessor.address e.processor
    if new.isZero then ⟨.error .zeroProcessor, e⟩
    else if new = old then ⟨.error .sameProcessor, e⟩
    else
      match e.handOver now p with
      | ⟨.error err, _⟩ => ⟨.error err, e⟩
      | ⟨.ok (), p⟩ =>
        ⟨.ok e.processor, { e with processor := p }.emit (.reportProcessorSet new old)⟩

end ReportQuorum.Engine
