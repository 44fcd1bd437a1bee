import ReportQuorum.Quorum
import ReportQuorum.RoleTable
import ReportQuorum.Roster
import ReportQuorum.Schedule

/-!
# Why an engine refuses a call

## Main definitions

* `Engine.Error`: the causes of a refusal, over those of the processor
* `Engine.Error.message`: their wording
-/

namespace ReportQuorum.Engine

/-- Why an engine refuses a call; `ε` says why its processor refuses one. -/
inductive Error (ε : Type) where
  /-- The schedule has no frame or refuses the change. -/
  | schedule (cause : Schedule.Error)
  /-- The roster refuses the change, or the sender of a vote has no seat. -/
  | roster (cause : Roster.Error)
  /-- The caller does not hold the role that the call needs. -/
  | missingRole (cause : MissingRole)
  /-- The quorum is no strict majority. -/
  | quorum (cause : Quorum.TooSmall)
  /-- The engine and its administrator need addresses other than zero. -/
  | zeroAddress
  /-- The processor needs an address other than zero. -/
  | zeroProcessor
  /-- A processor is not replaced by itself. -/
  | sameProcessor
  /-- The first reference slot would be one that the processor has passed. -/
  | initialSlotPassed
  /-- The vote is not for the current reference slot. -/
  | wrongSlot (refSlot expected : Word)
  /-- The deadline slot of the frame has passed. -/
  | staleReport (deadlineSlot : Word)
  /-- The slot is kept for the fast lane, and the sender is not in it. -/
  | notInFastLane
  /-- The zero digest is no report. -/
  | emptyReport
  /-- The sender's last vote is the same. -/
  | duplicateReport
  /-- The report of the frame is being processed, and the sender has voted on it. -/
  | alreadyProcessing
  /-- The vote quotes another version than the processor's. -/
  | wrongVersion (expected received : Word)
  /-- The processor refuses a call. -/
  | processor (cause : ε)
deriving DecidableEq

/-- The wording of a refusal. -/
def Error.message {ε : Type} [ToString ε] : Error ε → String
  | .schedule cause => cause.message
  | .roster cause => cause.message
  | .missingRole cause => "Core error: " ++ cause.message
  | .quorum cause => cause.message
  | .zeroAddress => "Address cannot be zero"
  | .zeroProcessor => "Report processor cannot be zero"
  | .sameProcessor => "New report processor cannot be the same as the current one"
  | .initialSlotPassed =>
    "Initial epoch ref slot cannot be earlier than the processing slot"
  | .wrongSlot refSlot expected =>
    "Invalid slot: expected " ++ expected.decimal ++ ", got " ++ refSlot.decimal
  | .staleReport deadlineSlot =>
    "Report is stale: frame deadline slot " ++ deadlineSlot.decimal ++ " has passed"
  | .notInFastLane => "Non fast lane member cannot report within the fast lane interval"
  | .emptyReport => "Empty report"
  | .duplicateReport => "Duplicate report"
  | .alreadyProcessing => "Consensus report is already being processed"
  | .wrongVersion expected received =>
    "Unexpected consensus version: expected " ++ expected.decimal ++ ", got " ++ received.decimal
  | .processor cause => "Report processor error: " ++ toString cause

instance {ε : Type} [ToString ε] : ToString (Error ε) := ⟨Error.message⟩

end ReportQuorum.Engine
