import ReportQuorum.Json.Record

/-!
# The time grid

Time is cut into slots of a fixed number of seconds, counted from a genesis time, and slots are
gathered into epochs. All of time before genesis belongs to slot zero; a slot or a moment that fits
no word is the last word.

## Main definitions

* `TimeGrid`: the lengths of slots and epochs and the genesis time
* `TimeGrid.slotAt`, `TimeGrid.epochAt`: the slot and the epoch of a moment
* `TimeGrid.timeOfSlot`, `TimeGrid.timeOfEpoch`: the first moment of a slot and of an epoch
* `TimeGrid.farFutureEpoch`: the epoch of the last moment
-/

namespace ReportQuorum

/-- The lengths of slots and epochs and the genesis time. -/
structure TimeGrid where
  slotsPerEpoch : Word
  secondsPerSlot : Word
  /-- The first moment of slot zero, in seconds. -/
  genesisTime : Word
deriving DecidableEq, Repr

namespace TimeGrid

/-- Why a grid cannot be used. -/
inductive Fault where
  /-- An epoch would have no slots. -/
  | emptyEpoch
  /-- A slot would have no seconds. -/
  | emptySlot
deriving DecidableEq, Repr

/-- The wording of a fault. -/
def Fault.message : Fault → String
  | .emptyEpoch => "Invalid chain config: slots per epoch cannot be zero"
  | .emptySlot => "Invalid chain config: seconds per slot cannot be zero"

/-- A grid can be used if neither length is zero. -/
def validate (g : TimeGrid) : Except Fault Unit :=
  if g.slotsPerEpoch = 0 then .error .emptyEpoch
  else if g.secondsPerSlot = 0 then .error .emptySlot
  else .ok ()

/-- The grid that is used where none is configured. -/
def standard : TimeGrid := ⟨32, 12, 1606824023⟩

/-- The slot of a moment. -/
def slotAt (g : TimeGrid) (time : Word) : Word := Word.subSat time g.genesisTime / g.secondsPerSlot

/-- The epoch of a moment. -/
def epochAt (g : TimeGrid) (time : Word) : Word := g.slotAt time / g.slotsPerEpoch

/-- The first slot of an epoch. -/
def firstSlot (g : TimeGrid) (epoch : Word) : Word := Word.mulSat epoch g.slotsPerEpoch

/-- The first moment of a slot. -/
def timeOfSlot (g : TimeGrid) (slot : Word) : Word :=
  Word.addSat g.genesisTime (Word.mulSat slot g.secondsPerSlot)

/-- The first moment of an epoch. -/
def timeOfEpoch (g : TimeGrid) (epoch : Word) : Word := g.timeOfSlot (g.firstSlot epoch)

/-- The epoch of the last moment; no moment belongs to a later one. -/
def farFutureEpoch (g : TimeGrid) : Word := g.epochAt Word.last

/-- The names of the fields, in their order. -/
def fieldNames : List String := ["slots_per_epoch", "seconds_per_slot", "genesis_time"]

instance : JsonForm TimeGrid where
  toTree g := .record [
    ("slots_per_epoch", toTree g.slotsPerEpoch),
    ("seconds_per_slot", toTree g.secondsPerSlot),
    ("genesis_time", toTree g.genesisTime)]
  ofTree? t := do
    let fields ← Json.Fields.ofTree? fieldNames t
    return {
      slotsPerEpoch := ← fields.required "slots_per_epoch"
      secondsPerSlot := ← fields.required "seconds_per_slot"
      genesisTime := ← fields.required "genesis_time" }

instance : BinaryForm TimeGrid where
  toBytes g := toBytes g.slotsPerEpoch ++ toBytes g.secondsPerSlot ++ toBytes g.genesisTime

end TimeGrid

end ReportQuorum
