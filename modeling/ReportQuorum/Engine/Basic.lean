import ReportQuorum.Engine.Error
import ReportQuorum.Engine.Event
import ReportQuorum.Processor
import ReportQuorum.Tally

/-!
# The consensus engine

A committee agrees on one report for each frame. Members vote for digests; a digest with enough
votes is handed to the report processor, and is withdrawn when it has no longer enough.

## Main definitions

* `Engine`: the state of an engine over a processor
* `Engine.Setup`: what an engine is made from
* `Engine.create`: a new engine
-/

namespace ReportQuorum

/-- The state of an engine over a processor. -/
structure Engine (π : Type) where
  /-- The name under which the engine calls its processor. -/
  address : Address
  schedule : Schedule
  roster : Roster
  /-- How many votes a report needs; zero until a quorum has been set. -/
  quorum : Word
  tally : Tally
  roles : RoleTable
  processor : π
  /-- The events that nobody has fetched yet, oldest first. -/
  events : List Engine.Event
deriving DecidableEq

namespace Engine

/-- What an engine is made from. -/
structure Setup where
  address : Address
  grid : TimeGrid
  epochsPerFrame : Word
  fastLaneSlots : Word
  /-- The first holder of the default admin role. -/
  admin : Address
deriving DecidableEq

namespace Setup

/-- The names of the fields, in their order. -/
def fieldNames : List String :=
  ["address", "chain", "epochs_per_frame", "fast_lane_length_slots", "admin"]

instance : JsonForm Setup where
  toTree s := .record [
    ("address", toTree s.address),
    ("chain", toTree s.grid),
    ("epochs_per_frame", toTree s.epochsPerFrame),
    ("fast_lane_length_slots", toTree s.fastLaneSlots),
    ("admin", toTree s.admin)]
  ofTree? t := do
    let fields ← Json.Fields.ofTree? fieldNames t
    return {
      address := ← fields.required "address"
      grid := ← fields.required "chain"
      epochsPerFrame := ← fields.required "epochs_per_frame"
      fastLaneSlots := ← fields.required "fast_lane_length_slots"
      admin := ← fields.required "admin" }

instance : BinaryForm Setup where
  toBytes s := toBytes s.address ++ toBytes s.grid ++ toBytes s.epochsPerFrame ++
    toBytes s.fastLaneSlots ++ toBytes s.admin

end Setup

variable {π ε : Type}

/-- Adds an event. -/
def emit (e : Engine π) (event : Event) : Engine π := { e with events := e.events ++ [event] }

/-- Adds an event if there is something to report. -/
def emitIf (e : Engine π) (changed : Bool) (event : Event) : Engine π :=
  if changed then e.emit event else e

/-- The engine after its events have been fetched. -/
def drained (e : Engine π) : Engine π := { e with events := [] }

/-- The event that tells the initial epoch and the length of frames. -/
def frameConfigEvent (s : Schedule) : Event :=
  .frameConfigSet s.layout.initialEpoch s.layout.epochsPerFrame

/-- A new engine: no members, no quorum, no frame to come. -/
def create [ReportProcessor π ε] (setup : Setup) (processor : π) :
    Except (Error ε) (Engine π) :=
  if setup.address.isZero || setup.admin.isZero then .error .zeroAddress
  else if (ReportProcessor.address processor).isZero then .error .zeroProcessor
  else
    match Schedule.dormant setup.grid setup.epochsPerFrame setup.fastLaneSlots with
    | .error cause => .error (.schedule cause)
    | .ok schedule =>
      let bare : Engine π :=
        { address := setup.address, schedule, roster := {}, quorum := 0, tally := {}
          roles := .ofAdmin setup.admin, processor, events := [] }
      .ok (bare.emit (frameConfigEvent schedule)
        |>.emitIf (setup.fastLaneSlots != 0) (.fastLaneConfigSet setup.fastLaneSlots)
        |>.emit (.reportProcessorSet (ReportProcessor.address processor) Octets.zero))

end Engine

end ReportQuorum
