import ReportQuorum.TimeGrid

/-!
# Frames and their schedule

From an initial epoch on, time is cut into frames of equally many epochs. Members report on the last
slot before a frame, its reference slot, and do so until the last slot of the frame, its deadline
slot. Right after the reference slot a number of slots may be kept for the fast lane.

## Main definitions

* `FrameLayout`: the initial epoch, the length of frames and the length of the fast lane
* `Frame`: a frame, named by its index
* `Schedule`: a layout on a time grid
* `Schedule.frameAt`: the frame of a moment
* `Schedule.reconfigure`: a change of the layout that keeps the start of the current frame
-/

namespace ReportQuorum

/-- The initial epoch, the length of frames and the length of the fast lane. -/
structure FrameLayout where
  initialEpoch : Word
  epochsPerFrame : Word
  /-- How many slots after the reference slot only the fast lane may report. -/
  fastLaneSlots : Word
deriving DecidableEq, Repr

namespace FrameLayout

/-- The names of the fields, in their order. -/
def fieldNames : List String := ["initial_epoch", "epochs_per_frame", "fast_lane_length_slots"]

instance : JsonForm FrameLayout where
  toTree l := .record [
    ("initial_epoch", toTree l.initialEpoch),
    ("epochs_per_frame", toTree l.epochsPerFrame),
    ("fast_lane_length_slots", toTree l.fastLaneSlots)]
  ofTree? t := do
    let fields ← Json.Fields.ofTree? fieldNames t
    return {
      initialEpoch := ← fields.required "initial_epoch"
      epochsPerFrame := ← fields.required "epochs_per_frame"
      fastLaneSlots := ← fields.required "fast_lane_length_slots" }

instance : BinaryForm FrameLayout where
  toBytes l := toBytes l.initialEpoch ++ toBytes l.epochsPerFrame ++ toBytes l.fastLaneSlots

end FrameLayout

/-- A frame. -/
structure Frame where
  /-- Frames are counted from the initial epoch. -/
  index : Word
  /-- The last slot before the frame, which reports are about. -/
  refSlot : Word
  /-- The last slot of the frame. -/
  deadlineSlot : Word
deriving DecidableEq, Repr

namespace Frame

/-- The names of the fields, in their order. -/
def fieldNames : List String := ["index", "ref_slot", "report_processing_deadline_slot"]

instance : JsonForm Frame where
  toTree f := .record [
    ("index", toTree f.index),
    ("ref_slot", toTree f.refSlot),
    ("report_processing_deadline_slot", toTree f.deadlineSlot)]
  ofTree? t := do
    let fields ← Json.Fields.ofTree? fieldNames t
    return {
      index := ← fields.required "index"
      refSlot := ← fields.required "ref_slot"
      deadlineSlot := ← fields.required "report_processing_deadline_slot" }

instance : BinaryForm Frame where
  toBytes f := toBytes f.index ++ toBytes f.refSlot ++ toBytes f.deadlineSlot

end Frame

/-- A layout on a time grid. -/
structure Schedule where
  grid : TimeGrid
  layout : FrameLayout
deriving DecidableEq, Repr

namespace Schedule

/-- Why a schedule gives no frame or refuses a change. -/
inductive Error where
  /-- The grid cannot be used. -/
  | grid (fault : TimeGrid.Fault)
  /-- A frame would have no epochs. -/
  | emptyFrame
  /-- The fast lane would be longer than the frame. -/
  | fastLaneTooLong
  /-- The initial epoch is yet to come. -/
  | notStarted
  /-- The initial epoch has come. -/
  | started
  /-- Epoch zero has no slot before it. -/
  | initialEpochZero
deriving DecidableEq, Repr

/-- The wording of a fault. -/
def Error.message : Error → String
  | .grid fault => "Core error: " ++ fault.message
  | .emptyFrame => "Epochs per frame cannot be zero"
  | .fastLaneTooLong => "Fast lane period cannot be longer than the frame"
  | .notStarted => "Initial epoch is yet to arrive"
  | .started => "Initial epoch already arrived"
  | .initialEpochZero => "Initial epoch cannot be zero"

/-- A frame has at least one epoch and is at least as long as its fast lane. -/
def checkLengths (g : TimeGrid) (epochsPerFrame fastLaneSlots : Word) : Except Error Unit :=
  if epochsPerFrame = 0 then .error .emptyFrame
  else if Word.mulSat epochsPerFrame g.slotsPerEpoch < fastLaneSlots then .error .fastLaneTooLong
  else .ok ()

/-- A schedule whose initial epoch is the last one, so that no frame begins for now. -/
def dormant (g : TimeGrid) (epochsPerFrame fastLaneSlots : Word) : Except Error Schedule := do
  g.validate.mapError .grid
  checkLengths g epochsPerFrame fastLaneSlots
  return ⟨g, ⟨g.farFutureEpoch, epochsPerFrame, fastLaneSlots⟩⟩

/-- How many slots a frame has. -/
def slotsPerFrame (s : Schedule) : Word := Word.mulSat s.layout.epochsPerFrame s.grid.slotsPerEpoch

/-- Whether the initial epoch has come. -/
def isActive (s : Schedule) (time : Word) : Bool := s.layout.initialEpoch ≤ s.grid.epochAt time

/-- The index of the frame of a moment. -/
def frameIndexAt (s : Schedule) (time : Word) : Except Error Word :=
  let epoch := s.grid.epochAt time
  if epoch < s.layout.initialEpoch then .error .notStarted
  else .ok ((epoch - s.layout.initialEpoch) / s.layout.epochsPerFrame)

/-- The first epoch of a frame. -/
def startEpoch (s : Schedule) (index : Word) : Word :=
  Word.addSat s.layout.initialEpoch (Word.mulSat index s.layout.epochsPerFrame)

/-- The frame with an index. -/
def frame (s : Schedule) (index : Word) : Frame :=
  let start := s.grid.firstSlot (s.startEpoch index)
  -- The frame spans `start` and the slots up to the start of the next one.
  { index
    refSlot := Word.subSat start 1
    deadlineSlot := Word.subSat (Word.addSat start s.slotsPerFrame) 1 }

/-- The frame of a moment. -/
def frameAt (s : Schedule) (time : Word) : Except Error Frame := s.frame <$> s.frameIndexAt time

/-- The frame that begins with the initial epoch. -/
def initialFrame (s : Schedule) : Frame := s.frame 0

/-- The first moment of a frame's deadline slot. -/
def deadlineTime (s : Schedule) (f : Frame) : Word := s.grid.timeOfSlot f.deadlineSlot

/-- Whether a slot is one that a frame keeps for its fast lane, or an earlier one. -/
def inFastLane (s : Schedule) (f : Frame) (slot : Word) : Bool :=
  slot ≤ Word.addSat f.refSlot s.layout.fastLaneSlots

/-- Moves an initial epoch that has not come. The new one may lie in the past, and then frames begin
at once. Also says whether it differs from the old one. -/
def setInitialEpoch (s : Schedule) (time initialEpoch : Word) : Except Error (Schedule × Bool) :=
  if initialEpoch = 0 then .error .initialEpochZero
  else if s.layout.initialEpoch ≤ s.grid.epochAt time then .error .started
  else .ok ({ s with layout.initialEpoch := initialEpoch }, initialEpoch != s.layout.initialEpoch)

/-- What a change of the layout has changed. -/
structure LayoutChange where
  /-- The initial epoch or the length of frames. -/
  frames : Bool
  /-- The length of the fast lane. -/
  fastLane : Bool
deriving DecidableEq, Repr

instance : JsonForm LayoutChange where
  toTree c := .record [
    ("frame_config_changed", toTree c.frames),
    ("fast_lane_changed", toTree c.fastLane)]
  ofTree? t := do
    let fields ← Json.Fields.ofTree? ["frame_config_changed", "fast_lane_changed"] t
    return {
      frames := ← fields.required "frame_config_changed"
      fastLane := ← fields.required "fast_lane_changed" }

/-- Changes the lengths of frames and fast lane. The new initial epoch is the first epoch of the
current frame, so that the current reference slot stays if frames do not get shorter. -/
def reconfigure (s : Schedule) (time epochsPerFrame fastLaneSlots : Word) :
    Except Error (Schedule × LayoutChange) := do
  checkLengths s.grid epochsPerFrame fastLaneSlots
  -- The current frame is found under the old layout.
  let index ← s.frameIndexAt time
  let initialEpoch := s.startEpoch index
  return (
    { s with layout := { initialEpoch, epochsPerFrame, fastLaneSlots } },
    { frames := initialEpoch != s.layout.initialEpoch || epochsPerFrame != s.layout.epochsPerFrame
      fastLane := fastLaneSlots != s.layout.fastLaneSlots })

/-- Changes the length of the fast lane. Also says whether it differs from the old one. -/
def setFastLane (s : Schedule) (fastLaneSlots : Word) : Except Error (Schedule × Bool) := do
  checkLengths s.grid s.layout.epochsPerFrame fastLaneSlots
  return ({ s with layout.fastLaneSlots := fastLaneSlots }, fastLaneSlots != s.layout.fastLaneSlots)

end Schedule

end ReportQuorum
