import ReportQuorum.Role

/-!
# The events of an oracle

## Main definitions

* `Oracle.Event`: what an oracle reports of itself
* `Oracle.Event.toTree`: its JSON form, an object with its kind and its data
-/

namespace ReportQuorum.Oracle

open Json (Tree)

/-- What an oracle reports of itself. -/
inductive Event where
  | consensusContractSet (address previous : Address)
  | consensusVersionSet (version previous : Word)
  | reportSubmitted (refSlot : Word) (report : Digest) (deadline : Word)
  | reportDiscarded (refSlot : Word) (report : Digest)
  | processingStarted (refSlot : Word) (report : Digest)
  /-- A report was replaced before its processing had started. -/
  | processingMissed (refSlot : Word)
  | roleGranted (role : Role) (account sender : Address)
  | roleRevoked (role : Role) (account sender : Address)
deriving DecidableEq

/-- The JSON form of an event. -/
def Event.toTree : Event → Tree
  | .consensusContractSet address previous => tagged "ConsensusHashContractSet" [
      ("addr", JsonForm.toTree address),
      ("prev_addr", JsonForm.toTree previous)]
  | .consensusVersionSet version previous => tagged "ConsensusVersionSet" [
      ("version", JsonForm.toTree version),
      ("prev_version", JsonForm.toTree previous)]
  | .reportSubmitted refSlot report deadline => tagged "ReportSubmitted" [
      ("ref_slot", JsonForm.toTree refSlot),
      ("hash", JsonForm.toTree report),
      ("processing_deadline_time", JsonForm.toTree deadline)]
  | .reportDiscarded refSlot report => tagged "ReportDiscarded" [
      ("ref_slot", JsonForm.toTree refSlot),
      ("hash", JsonForm.toTree report)]
  | .processingStarted refSlot report => tagged "ProcessingStarted" [
      ("ref_slot", JsonForm.toTree refSlot),
      ("hash", JsonForm.toTree report)]
  | .processingMissed refSlot => tagged "WarnProcessingMissed" [
      ("ref_slot", JsonForm.toTree refSlot)]
  | .roleGranted role account sender => tagged "RoleGranted" [
      ("role", JsonForm.toTree role),
      ("account", JsonForm.toTree account),
      ("sender", JsonForm.toTree sender)]
  | .roleRevoked role account sender => tagged "RoleRevoked" [
      ("role", JsonForm.toTree role),
      ("account", JsonForm.toTree account),
      ("sender", JsonForm.toTree sender)]
where
  /-- An event as an object with its kind and its data. -/
  tagged (kind : String) (data : List (String × Tree)) : Tree :=
    .record [("type", .text kind), ("data", .record data)]

end ReportQuorum.Oracle
