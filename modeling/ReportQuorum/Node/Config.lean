import ReportQuorum.TimeGrid

/-!
# Node configurations

## Main definitions

* `Node.Config`: what a node is made from
* `Node.Config.sample`: a configuration with a new committee
-/

namespace ReportQuorum.Node

/-- What a node is made from. -/
structure Config where
  grid : TimeGrid
  epochsPerFrame : Word
  fastLaneSlots : Word
  /-- The epoch in which the first frame begins; without it no frame does. -/
  initialEpoch : Option Word
  /-- The version that votes have to quote. -/
  version : Word
  /-- The holder of every role. -/
  admin : Address
  engine : Address
  oracle : Address
  /-- The committee, in the order of the seats. -/
  members : List Address
  quorum : Word
deriving DecidableEq

namespace Config

/-- The names of the fields, in their order. -/
def fieldNames : List String :=
  ["chain", "epochs_per_frame", "fast_lane_length_slots", "initial_epoch", "consensus_version",
    "admin", "consensus_address", "oracle_address", "members", "quorum"]

instance : JsonForm Config where
  toTree c := .record [
    ("chain", toTree c.grid),
    ("epochs_per_frame", toTree c.epochsPerFrame),
    ("fast_lane_length_slots", toTree c.fastLaneSlots),
    ("initial_epoch", toTree c.initialEpoch),
    ("consensus_version", toTree c.version),
    ("admin", toTree c.admin),
    ("consensus_address", toTree c.engine),
    ("oracle_address", toTree c.oracle),
    ("members", toTree c.members),
    ("quorum", toTree c.quorum)]
  ofTree? t := do
    let fields ← Json.Fields.ofTree? fieldNames t
    return {
      grid := ← fields.required "chain"
      epochsPerFrame := ← fields.required "epochs_per_frame"
      fastLaneSlots := ← fields.required "fast_lane_length_slots"
      initialEpoch := ← fields.optional "initial_epoch"
      version := ← fields.required "consensus_version"
      admin := ← fields.required "admin"
      engine := ← fields.required "consensus_address"
      oracle := ← fields.required "oracle_address"
      members := ← fields.required "members"
      quorum := ← fields.required "quorum" }

instance : BinaryForm Config where
  toBytes c := toBytes c.grid ++ toBytes c.epochsPerFrame ++ toBytes c.fastLaneSlots ++
    toBytes c.initialEpoch ++ toBytes c.version ++ toBytes c.admin ++ toBytes c.engine ++
    toBytes c.oracle ++ toBytes c.members ++ toBytes c.quorum

/-- The moment at which a simulation begins if nothing else is said: the first of the initial epoch,
or the genesis time if no frame begins. -/
def startTime (c : Config) : Word := c.grid.timeOfEpoch (c.initialEpoch.getD 0)

/-- A configuration with a committee of a given size. The addresses are drawn from a supply of fresh
ones: first the members, then the administrator, the engine and the oracle. -/
def sample (fresh : Nat → Address) (members : Nat) : Config :=
  { grid := .standard
    epochsPerFrame := 225
    fastLaneSlots := 0
    initialEpoch := some 1
    version := 1
    admin := fresh members
    engine := fresh (members + 1)
    oracle := fresh (members + 2)
    members := (List.range members).map fresh
    quorum := UInt64.ofNat members / 2 + 1 }

end Config

end ReportQuorum.Node
