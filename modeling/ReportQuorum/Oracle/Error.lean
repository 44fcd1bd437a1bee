import ReportQuorum.RoleTable
import ReportQuorum.TimeGrid

/-!
# Why an oracle refuses a call

## Main definitions

* `Oracle.Error`: the causes of a refusal, over those of the handler
* `Oracle.Error.message`: their wording
-/

namespace ReportQuorum.Oracle

/-- Why an oracle refuses a call; `φ` says why its handler refuses a report. -/
inductive Error (φ : Type) where
  /-- Only the engine that the oracle is bound to may hand over and withdraw. -/
  | foreignSender
  /-- The zero digest is no report. -/
  | zeroReport
  /-- The reference slot is before that of the report held. -/
  | slotDecreases (refSlot previous : Word)
  /-- The processing of the reference slot, or of a later one, has started. -/
  | slotNotAfterProcessing (refSlot processing : Word)
  /-- The report held is being processed. -/
  | alreadyProcessing
  /-- The slot of the deadline has passed. -/
  | deadlineMissed (deadline : Word)
  /-- There is no report to process. -/
  | nothingToProcess
  /-- The data is for another reference slot. -/
  | wrongSlot (held received : Word)
  /-- The data quotes another version. -/
  | wrongVersion (expected received : Word)
  /-- The data has another digest. -/
  | wrongReport (held received : Digest)
  /-- The oracle, its engine and its administrator need addresses other than zero. -/
  | zeroAddress
  /-- The oracle is bound to this engine already. -/
  | sameAddress
  /-- The new engine has another time grid. -/
  | otherGrid
  /-- The new engine begins before the reference slot being processed. -/
  | initialSlotPassed (initial processing : Word)
  /-- The version is the same already. -/
  | sameVersion
  /-- The time grid cannot be used. -/
  | grid (fault : TimeGrid.Fault)
  /-- The caller does not hold the role that the call needs. -/
  | missingRole (cause : MissingRole)
  /-- The handler refuses the report. -/
  | handler (cause : φ)
deriving DecidableEq

/-- The wording of a refusal. -/
def Error.message {φ : Type} [ToString φ] : Error φ → String
  | .foreignSender => "Sender is not the consensus contract"
  | .zeroReport => "Hash cannot be zero"
  | .slotDecreases refSlot previous =>
    "Ref slot cannot decrease: got " ++ refSlot.decimal ++ ", previous " ++ previous.decimal
  | .slotNotAfterProcessing refSlot processing =>
    "Ref slot " ++ refSlot.decimal ++ " must be greater than processing ref slot "
      ++ processing.decimal
  | .alreadyProcessing => "Ref slot is already processing"
  | .deadlineMissed deadline => "Processing deadline missed: " ++ deadline.decimal
  | .nothingToProcess => "No consensus report to process"
  | .wrongSlot held received =>
    "Unexpected ref slot: consensus has " ++ held.decimal ++ ", data has " ++ received.decimal
  | .wrongVersion expected received =>
    "Unexpected consensus version: expected " ++ expected.decimal ++ ", got " ++ received.decimal
  | .wrongReport held received =>
    "Unexpected data hash: consensus has " ++ held.text ++ ", data has " ++ received.text
  | .zeroAddress => "Address cannot be zero"
  | .sameAddress => "Address cannot be the same"
  | .otherGrid => "Consensus contract chain config does not match"
  | .initialSlotPassed initial processing =>
    "Initial ref slot " ++ initial.decimal ++ " is less than processing ref slot "
      ++ processing.decimal
  | .sameVersion => "Version cannot be the same"
  | .grid fault => "Core error: " ++ fault.message
  | .missingRole cause => "Core error: " ++ cause.message
  | .handler cause => "Report handler error: " ++ toString cause

instance {φ : Type} [ToString φ] : ToString (Error φ) := ⟨Error.message⟩

end ReportQuorum.Oracle
