import ReportQuorum.Node.Basic
import ReportQuorum.Scenario

/-!
# Simulations

A scenario is played against a new node. A step that the node refuses is noted, and the play goes
on with the next one. The clock moves by steps of its own only, so that every other step sees one
moment of it.

## Main definitions

* `Simulation.State`: a node and the time
* `Simulation.apply`: one step
* `Simulation.Report`: what is known after a play
* `Simulation.run`: a play
-/

namespace ReportQuorum.Simulation

open Json (Tree)
open Scenario (Step)

/-- A node and the time. -/
structure State where
  now : Word
  node : Node
deriving DecidableEq

namespace State

/-- The state after a call of the engine. -/
def afterEngine (s : State)
    (r : Reply (Engine.Error (Oracle.Error Empty)) (Engine (Oracle ReportLog)) Unit) :
    Reply Node.Error State Unit :=
  r.map .engine fun engine => { s with node.engine := engine }

/-- The state after a call of the oracle. -/
def afterOracle (s : State) (r : Reply (Oracle.Error Empty) (Oracle ReportLog) Word) :
    Reply Node.Error State Unit :=
  ⟨(r.result.map fun _ => ()).mapError .oracle, { s with node.engine.processor := r.state }⟩

end State

/-- One step. The calls are those of the administrator; clock moves wrap around the last moment. -/
def apply (s : State) (step : Step) : Reply Node.Error State Unit :=
  let admin := s.node.admin
  let e := s.node.engine
  match step with
  | .setTime time => ⟨.ok (), { s with now := time }⟩
  | .advanceTime seconds => ⟨.ok (), { s with now := s.now + seconds }⟩
  | .advanceSlots slots =>
    ⟨.ok (), { s with now := s.now + Word.mulSat slots e.schedule.grid.secondsPerSlot }⟩
  | .submitReport member report refSlot version =>
    let version := version.getD e.processor.version
    match refSlot with
    | some refSlot => s.afterEngine (e.submitReport s.now member ⟨refSlot, report⟩ version)
    | none =>
      match e.currentFrame s.now with
      | .error cause => ⟨.error (.engine (.schedule cause)), s⟩
      | .ok frame => s.afterEngine (e.submitReport s.now member ⟨frame.refSlot, report⟩ version)
  | .addMember member quorum => s.afterEngine (e.addMember s.now admin member quorum)
  | .removeMember member quorum => s.afterEngine (e.removeMember s.now admin member quorum)
  | .setQuorum quorum => s.afterEngine (e.setQuorum s.now admin quorum)
  | .disableConsensus => s.afterEngine (e.disableConsensus s.now admin)
  | .setFrameConfig epochs slots => s.afterEngine (e.setFrameConfig s.now admin epochs slots)
  | .startProcessing => s.afterOracle (e.processor.startProcessing s.now)

/-- A step that the node has refused. -/
structure Rejection where
  /-- The position of the step. -/
  index : Nat
  step : Step
  cause : Node.Error
deriving DecidableEq

/-- The JSON form of a refused step. -/
def Rejection.toTree (r : Rejection) : Tree :=
  .record [
    ("index", .nat r.index),
    ("action", .text r.step.action),
    ("error", .text r.cause.message)]

/-- A play so far: the state, the events and the refused steps. -/
structure Progress where
  state : State
  events : List Node.Event
  rejected : List Rejection
deriving DecidableEq

namespace Progress

/-- A play about to begin. The events of making the node are its first. -/
def start (now : Word) (node : Node) : Progress := ⟨⟨now, node.drained⟩, node.pending, []⟩

/-- A play after one more step. -/
def next (p : Progress) (index : Nat) (step : Step) : Progress :=
  let r := apply p.state step
  { state := { r.state with node := r.state.node.drained }
    events := p.events ++ r.state.node.pending
    rejected :=
      match r.result with
      | .ok () => p.rejected
      | .error cause => p.rejected ++ [⟨index, step, cause⟩] }

/-- A play after more steps, the first of which has a given position. -/
def play (p : Progress) (index : Nat) : List Step → Progress
  | [] => p
  | step :: steps => (p.next index step).play (index + 1) steps

end Progress

/-- What is known after a play. -/
structure Report where
  finalTime : Word
  /-- The agreement on the current frame, if frames have begun. -/
  status : Option Engine.Status
  oracleReport : Oracle.ReportStatus
  events : List Node.Event
  rejected : List Rejection
deriving DecidableEq

/-- What is known of a play. -/
def Progress.report (p : Progress) : Report :=
  { finalTime := p.state.now
    status := (p.state.node.engine.status p.state.now).toOption
    oracleReport := p.state.node.oracle.reportStatus
    events := p.events
    rejected := p.rejected }

/-- The JSON form of what is known after a play. -/
def Report.toTree (r : Report) : Tree :=
  .record [
    ("final_time", JsonForm.toTree r.finalTime),
    ("consensus_state", JsonForm.toTree r.status),
    ("oracle_report", JsonForm.toTree r.oracleReport),
    ("events", .array (r.events.map (·.toTree))),
    ("rejected", .array (r.rejected.map (·.toTree)))]

/-- Plays a scenario against a new node. -/
def run (c : Node.Config) (s : Scenario) : Except Node.Error Report := do
  let now := s.startTime.getD c.startTime
  let node ← Node.create c now
  return (Progress.start now node |>.play 0 s.steps).report

end ReportQuorum.Simulation
