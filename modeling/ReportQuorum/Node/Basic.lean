import ReportQuorum.Engine.Operations
import ReportQuorum.Engine.Query
import ReportQuorum.Node.Config
import ReportQuorum.Oracle.Basic

/-!
# Nodes

A node is an engine over an oracle that logs its reports, both on one clock, with an administrator
that holds every role.

## Main definitions

* `Node`: the state of a node
* `Node.create`: a node with its committee seated
* `Node.drain`: the events of both sides, those of the engine first
* `Node.watch`: the frames that a sequence of clock readings falls into
-/

namespace ReportQuorum

/-- The state of a node. -/
structure Node where
  /-- The holder of every role. -/
  admin : Address
  engine : Engine (Oracle ReportLog)
deriving DecidableEq

namespace Node

/-- Why a node is not made or refuses a step. -/
inductive Error where
  | engine (cause : Engine.Error (Oracle.Error Empty))
  | oracle (cause : Oracle.Error Empty)
  | grid (fault : TimeGrid.Fault)
deriving DecidableEq

/-- The wording of a refusal. -/
def Error.message : Error → String
  | .engine cause => "Consensus error: " ++ cause.message
  | .oracle cause => "Oracle error: " ++ cause.message
  | .grid fault => "Core error: " ++ fault.message

/-- An event of either side. -/
inductive Event where
  | engine (event : Engine.Event)
  | oracle (event : Oracle.Event)
deriving DecidableEq

/-- The JSON form of an event: its side and the event. -/
def Event.toTree : Event → Json.Tree
  | .engine event => .record [("source", .text "consensus"), ("event", event.toTree)]
  | .oracle event => .record [("source", .text "oracle"), ("event", event.toTree)]

/-- The roles that the administrator of a node is granted in its engine, in turn. -/
def engineRoles : List Role :=
  [.manageMembersAndQuorum, .disableConsensus, .manageFrameConfig, .manageFastLaneConfig,
    .manageReportProcessor]

/-- The roles that the administrator of a node is granted in its oracle, in turn. -/
def oracleRoles : List Role := [.manageConsensusContract, .manageConsensusVersion]

/-- The oracle of a node. -/
def oracle (n : Node) : Oracle ReportLog := n.engine.processor

/-- What a call of the engine does to its state, or why it is refused. -/
def engineStep (r : Reply (Engine.Error (Oracle.Error Empty)) (Engine (Oracle ReportLog)) Unit) :
    Except Error (Engine (Oracle ReportLog)) :=
  match r with
  | ⟨.error cause, _⟩ => .error (.engine cause)
  | ⟨.ok (), e⟩ => .ok e

/-- Grants a role to the administrator in the oracle under an engine. -/
def grantInOracle (admin : Address) (e : Engine (Oracle ReportLog)) (role : Role) :
    Except Error (Engine (Oracle ReportLog)) :=
  match (e.processor.grantRole admin role admin :
      Reply (Oracle.Error Empty) (Oracle ReportLog) Unit) with
  | ⟨.error cause, _⟩ => .error (.oracle cause)
  | ⟨.ok (), processor⟩ => .ok { e with processor }

/-- The oracle that a configuration describes. -/
def oracleSetup (c : Config) : Oracle.Setup :=
  { address := c.oracle, engine := c.engine, grid := c.grid, version := c.version
    processingSlot := 0, admin := c.admin }

/-- The engine that a configuration describes. -/
def engineSetup (c : Config) : Engine.Setup :=
  { address := c.engine, grid := c.grid, epochsPerFrame := c.epochsPerFrame
    fastLaneSlots := c.fastLaneSlots, admin := c.admin }

/-- A node: its administrator is granted every role, the committee is seated, and the initial epoch
is set if there is one. -/
def create (c : Config) (now : Word) : Except Error Node := do
  c.grid.validate.mapError .grid
  let oracle ← (Oracle.create (oracleSetup c) ({} : ReportLog)).mapError .oracle
  let e ← (Engine.create (engineSetup c) oracle).mapError .engine
  let e ← engineRoles.foldlM (fun e role => engineStep (e.grantRole c.admin role c.admin)) e
  let e ← oracleRoles.foldlM (grantInOracle c.admin) e
  -- The quorum is checked against the committee as it grows.
  let e ← c.members.foldlM (fun e m => engineStep (e.addMember now c.admin m c.quorum)) e
  let e ← match c.initialEpoch with
    | none => pure e
    | some epoch => engineStep (e.updateInitialEpoch now c.admin epoch)
  return { admin := c.admin, engine := e }

/-- The frame of the current moment, if frames have begun. -/
def currentFrame? (n : Node) (now : Word) : Option Frame := (n.engine.currentFrame now).toOption

/-- The events that nobody has fetched yet, those of the engine first. -/
def pending (n : Node) : List Event :=
  n.engine.events.map .engine ++ n.oracle.events.map .oracle

/-- The node after its events have been fetched. -/
def drained (n : Node) : Node :=
  { n with engine := { n.engine with processor := n.oracle.drained }.drained }

/-! ### Watching -/

/-- The frames seen after one more clock reading: a frame other than the last one seen is new. -/
def observe (n : Node) (seen : List Frame) (now : Word) : List Frame :=
  match n.currentFrame? now with
  | none => seen
  | some f => if seen.getLast? = some f then seen else seen ++ [f]

/-- The frames that a sequence of clock readings falls into, and the node after it, whose events are
fetched at each reading. -/
def watch (n : Node) (readings : List Word) : List Frame × Node :=
  (readings.foldl n.observe [], if readings.isEmpty then n else n.drained)

/-- How often the clock is read when the number of readings is limited: at least once. -/
def readingCount (limit : Word) : Nat := max 1 limit.toNat

end Node

end ReportQuorum
