import ReportQuorum.Role

/-!
# The events of an engine

Every change of an engine leaves an event.

## Main definitions

* `Engine.Event`: what an engine reports of itself
* `Engine.Event.toTree`: its JSON form, an object with its kind and its data
-/

namespace ReportQuorum.Engine

open Json (Tree)

/-- What an engine reports of itself. -/
inductive Event where
  | frameConfigSet (initialEpoch epochsPerFrame : Word)
  | fastLaneConfigSet (fastLaneSlots : Word)
  | memberAdded (member : Address) (members quorum : Word)
  | memberRemoved (member : Address) (members quorum : Word)
  | quorumSet (quorum members previous : Word)
  | reportReceived (refSlot : Word) (member : Address) (report : Digest)
  | consensusReached (refSlot : Word) (report : Digest) (support : Word)
  | consensusLost (refSlot : Word)
  | reportProcessorSet (processor previous : Address)
  | roleGranted (role : Role) (account sender : Address)
  | roleRevoked (role : Role) (account sender : Address)
deriving DecidableEq

/-- The JSON form of an event. -/
def Event.toTree : Event → Tree
  | .frameConfigSet initialEpoch epochsPerFrame => tagged "FrameConfigSet" [
      ("new_initial_epoch", JsonForm.toTree initialEpoch),
      ("new_epochs_per_frame", JsonForm.toTree epochsPerFrame)]
  | .fastLaneConfigSet fastLaneSlots => tagged "FastLaneConfigSet" [
      ("fast_lane_length_slots", JsonForm.toTree fastLaneSlots)]
  | .memberAdded member members quorum => tagged "MemberAdded" [
      ("addr", JsonForm.toTree member),
      ("new_total_members", JsonForm.toTree members),
      ("new_quorum", JsonForm.toTree quorum)]
  | .memberRemoved member members quorum => tagged "MemberRemoved" [
      ("addr", JsonForm.toTree member),
      ("new_total_members", JsonForm.toTree members),
      ("new_quorum", JsonForm.toTree quorum)]
  | .quorumSet quorum members previous => tagged "QuorumSet" [
      ("new_quorum", JsonForm.toTree quorum),
      ("total_members", JsonForm.toTree members),
      ("prev_quorum", JsonForm.toTree previous)]
  | .reportReceived refSlot member report => tagged "ReportReceived" [
      ("ref_slot", JsonForm.toTree refSlot),
      ("member", JsonForm.toTree member),
      ("report", JsonForm.toTree report)]
  | .consensusReached refSlot report support => tagged "ConsensusReached" [
      ("ref_slot", JsonForm.toTree refSlot),
      ("report", JsonForm.toTree report),
      ("support", JsonForm.toTree support)]
  | .consensusLost refSlot => tagged "ConsensusLost" [
      ("ref_slot", JsonForm.toTree refSlot)]
  | .reportProcessorSet processor previous => tagged "ReportProcessorSet" [
      ("processor", JsonForm.toTree processor),
      ("prev_processor", JsonForm.toTree previous)]
  | .roleGranted role account sender => tagged "RoleGranted" [
      ("role", JsonForm.toTree role),
      ("account", JsonForm.toTree account),
      ("sender", JsonForm.toTree sender)]
  | .roleRevoked role account sender => tagged "RoleRevoked" [
      ("role", JsonForm.toTree role),
      ("account", JsonForm.toTree account),
      ("sender", JsonForm.toTree sender)]
where
  /-- An event as an object with its kind and its data. -/
  tagged (kind : String) (data : List (String × Tree)) : Tree :=
    .record [("type", .text kind), ("data", .record data)]

end ReportQuorum.Engine
