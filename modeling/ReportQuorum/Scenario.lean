import ReportQuorum.Payload
import ReportQuorum.Json.Record

/-!
# Scenarios

A scenario is a script of steps for a node: clock moves, votes, and calls of the administrator.

## Main definitions

* `Scenario.Step`: a step
* `Scenario`: the steps and the moment of the first
-/

namespace ReportQuorum

open Json (Tree Fields)

namespace Scenario

/-- A step of a script. -/
inductive Step where
  | setTime (time : Word)
  | advanceTime (seconds : Word)
  | advanceSlots (slots : Word)
  /-- A vote. Reference slot and version are those of the moment if they are left out. -/
  | submitReport (member : Address) (report : Digest) (refSlot version : Option Word)
  | addMember (member : Address) (quorum : Word)
  | removeMember (member : Address) (quorum : Word)
  | setQuorum (quorum : Word)
  | disableConsensus
  | setFrameConfig (epochsPerFrame fastLaneSlots : Word)
  | startProcessing
deriving DecidableEq

namespace Step

/-- The name of a step's action. -/
def action : Step → String
  | .setTime _ => "set_time"
  | .advanceTime _ => "advance_time"
  | .advanceSlots _ => "advance_slots"
  | .submitReport .. => "submit_report"
  | .addMember .. => "add_member"
  | .removeMember .. => "remove_member"
  | .setQuorum _ => "set_quorum"
  | .disableConsensus => "disable_consensus"
  | .setFrameConfig .. => "set_frame_config"
  | .startProcessing => "start_processing"

/-- The fields of a step besides its action. -/
def fields : Step → Fields
  | .setTime time => [("time", toTree time)]
  | .advanceTime seconds => [("seconds", toTree seconds)]
  | .advanceSlots slots => [("slots", toTree slots)]
  | .submitReport member report refSlot version => [
      ("member", toTree member),
      ("hash", toTree report),
      ("ref_slot", toTree refSlot),
      ("consensus_version", toTree version)]
  | .addMember member quorum => [("member", toTree member), ("quorum", toTree quorum)]
  | .removeMember member quorum => [("member", toTree member), ("quorum", toTree quorum)]
  | .setQuorum quorum => [("quorum", toTree quorum)]
  | .disableConsensus => []
  | .setFrameConfig epochs slots => [
      ("epochs_per_frame", toTree epochs),
      ("fast_lane_length_slots", toTree slots)]
  | .startProcessing => []

/-- The names of the fields of an action, and how many of them must be there. -/
def fieldNames? : String → Option (List String × Nat)
  | "set_time" => some (["time"], 1)
  | "advance_time" => some (["seconds"], 1)
  | "advance_slots" => some (["slots"], 1)
  | "submit_report" => some (["member", "hash", "ref_slot", "consensus_version"], 2)
  | "add_member" => some (["member", "quorum"], 2)
  | "remove_member" => some (["member", "quorum"], 2)
  | "set_quorum" => some (["quorum"], 1)
  | "disable_consensus" => some ([], 0)
  | "set_frame_config" => some (["epochs_per_frame", "fast_lane_length_slots"], 2)
  | "start_processing" => some ([], 0)
  | _ => none

/-- The step of an action with given fields. -/
def ofFields? (action : String) (fs : Fields) : Option Step :=
  match action with
  | "set_time" => do return .setTime (← fs.required "time")
  | "advance_time" => do return .advanceTime (← fs.required "seconds")
  | "advance_slots" => do return .advanceSlots (← fs.required "slots")
  | "submit_report" => do
    return .submitReport (← fs.required "member") (← fs.required "hash")
      (← fs.optional "ref_slot") (← fs.optional "consensus_version")
  | "add_member" => do return .addMember (← fs.required "member") (← fs.required "quorum")
  | "remove_member" => do return .removeMember (← fs.required "member") (← fs.required "quorum")
  | "set_quorum" => do return .setQuorum (← fs.required "quorum")
  | "disable_consensus" => some .disableConsensus
  | "set_frame_config" => do
    return .setFrameConfig (← fs.required "epochs_per_frame")
      (← fs.required "fast_lane_length_slots")
  | "start_processing" => some .startProcessing
  | _ => none

/-- The action named by the only member with that key. -/
def action? (ms : List (Json.Text × Tree)) : Option String :=
  match ms.filter (·.1 = some "action") with
  | [(_, .string s)] => s
  | _ => none

/-- How deeply a step may be nested: two levels of the scenario are around it. -/
def depthLimit : Nat := Payload.depthLimit - 2

/-- The step that a tree stands for: an object with its action anywhere among the fields, or an array
that begins with it. The whole of a step must be readable as a payload, also what is passed over. -/
def ofTree? (t : Tree) : Option Step := do
  guard (t.depth ≤ depthLimit)
  -- The action may come last, so all of the step is read before it is known which fields count.
  let _ ← Payload.ofTree? t
  match t with
  | .object ms =>
    let action ← action? ms
    let (names, _) ← fieldNames? action
    ofFields? action (← Fields.ofMembers? names ms)
  | .array (.string (some action) :: items) =>
    let (names, least) ← fieldNames? action
    ofFields? action (← Fields.ofItems? names least items)
  | _ => none

instance : JsonForm Step where
  toTree s := .record (("action", .text s.action) :: s.fields)
  ofTree? := ofTree?

instance : BinaryForm Step where
  toBytes s := toBytes s.action ++
    match s with
    | .setTime time => toBytes time
    | .advanceTime seconds => toBytes seconds
    | .advanceSlots slots => toBytes slots
    | .submitReport member report refSlot version =>
      toBytes member ++ toBytes report ++ toBytes refSlot ++ toBytes version
    | .addMember member quorum => toBytes member ++ toBytes quorum
    | .removeMember member quorum => toBytes member ++ toBytes quorum
    | .setQuorum quorum => toBytes quorum
    | .disableConsensus => []
    | .setFrameConfig epochs slots => toBytes epochs ++ toBytes slots
    | .startProcessing => []

end Step

end Scenario

/-- A script of steps. -/
structure Scenario where
  /-- The moment of the first step, if it is not that of the configuration. -/
  startTime : Option Word
  steps : List Scenario.Step
deriving DecidableEq

namespace Scenario

/-- The names of the fields, in their order. -/
def fieldNames : List String := ["start_time", "steps"]

instance : JsonForm Scenario where
  toTree s := .record [("start_time", toTree s.startTime), ("steps", toTree s.steps)]
  ofTree? t := do
    let fields ← Fields.ofTree? fieldNames t
    return { startTime := ← fields.optional "start_time", steps := ← fields.required "steps" }

instance : BinaryForm Scenario where
  toBytes s := toBytes s.startTime ++ toBytes s.steps

end Scenario

end ReportQuorum
