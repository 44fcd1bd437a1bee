import ReportQuorum.Engine.Operations

/-!
# Calls as data

The calls of an engine, with who makes them and their arguments, so that sequences of calls can be
spoken of.

## Main definitions

* `Engine.Command`: a call
* `Engine.perform`: the reply to a call
-/

namespace ReportQuorum.Engine

variable {π ε : Type}

/-- A call of an engine over processors `π`. -/
inductive Command (π : Type) where
  | grantRole (caller : Address) (role : Role) (account : Address)
  | revokeRole (caller : Address) (role : Role) (account : Address)
  | updateInitialEpoch (caller : Address) (epoch : Word)
  | setFrameConfig (caller : Address) (epochsPerFrame fastLaneSlots : Word)
  | setFastLane (caller : Address) (fastLaneSlots : Word)
  | addMember (caller member : Address) (quorum : Word)
  | removeMember (caller member : Address) (quorum : Word)
  | setQuorum (caller : Address) (quorum : Word)
  | disableConsensus (caller : Address)
  | submitReport (sender : Address) (vote : Vote) (version : Word)
  | setReportProcessor (caller : Address) (processor : π)

/-- The reply to a call, all of which happens at one moment of the clock. The answer is the
processor that the call has replaced, if any. -/
def perform [ReportProcessor π ε] (e : Engine π) (now : Word) :
    Command π → Reply (Error ε) (Engine π) (Option π)
  | .grantRole caller role account => answerNone (e.grantRole caller role account)
  | .revokeRole caller role account => answerNone (e.revokeRole caller role account)
  | .updateInitialEpoch caller epoch => answerNone (e.updateInitialEpoch now caller epoch)
  | .setFrameConfig caller epochs slots => answerNone (e.setFrameConfig now caller epochs slots)
  | .setFastLane caller slots => answerNone (e.setFastLane caller slots)
  | .addMember caller member quorum => answerNone (e.addMember now caller member quorum)
  | .removeMember caller member quorum => answerNone (e.removeMember now caller member quorum)
  | .setQuorum caller quorum => answerNone (e.setQuorum now caller quorum)
  | .disableConsensus caller => answerNone (e.disableConsensus now caller)
  | .submitReport sender vote version => answerNone (e.submitReport now sender vote version)
  | .setReportProcessor caller p =>
    let r := e.setReportProcessor now caller p
    ⟨r.result.map some, r.state⟩
where
  /-- The reply to a call that replaces no processor. -/
  answerNone (r : Reply (Error ε) (Engine π) Unit) : Reply (Error ε) (Engine π) (Option π) :=
    ⟨r.result.map fun () => none, r.state⟩

end ReportQuorum.Engine
