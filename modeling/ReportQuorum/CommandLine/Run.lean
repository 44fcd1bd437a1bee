import ReportQuorum.CommandLine.Arguments
import ReportQuorum.Simulation

/-!
# Carrying out a command

What a command does follows from what it sees: what paths name, the time, a supply of fresh
addresses, and how much memory there is. It prints a text, and one command also writes a file. Where
a path leads is for the system to say: the program is stated for anything that keeps files.

## Main definitions

* `Files`: what keeps files
* `Surroundings`: what a command sees
* `Product`: what a command prints and writes
* `Failure`: why a command fails
* `Command.run`: what a command produces
* `execute`: the program, from the files before it to the files after it
-/

namespace ReportQuorum.CommandLine

open Json (Tree)

/-- What a reader finds at the end of a path. -/
inductive Entry where
  | missing
  /-- Something is there, but it gives no text: a directory, for instance. -/
  | unreadable
  | file (text : String)
deriving DecidableEq

/-- What keeps files under paths. -/
class Files (σ : Type) where
  /-- What a reader finds at the end of a path. -/
  entry : σ → String → Entry
  /-- The files after a text has been written to the end of a path, if that can be done. -/
  write? : σ → String → String → Option σ

/-- What a command sees. -/
structure Surroundings where
  /-- What a reader finds at the end of a path. -/
  entry : String → Entry
  now : Word
  /-- Addresses that nobody has. -/
  fresh : Nat → Address
  /-- How many bytes can be had for a committee. -/
  memory : Nat

/-- What a command prints and writes. -/
structure Product where
  output : String := ""
  /-- A path and the text of the file there. -/
  file : Option (String × String) := none
deriving DecidableEq

/-- Why a command fails. -/
inductive Failure where
  | configMissing
  | unreadable (path : String)
  | unwritable (path : String)
  /-- The text of a file is not what it has to be. -/
  | malformed (path : String)
  | grid (fault : TimeGrid.Fault)
  | noInitialEpoch
  | schedule (cause : Schedule.Error)
  | node (cause : Node.Error)
  /-- The clock would be looked at without a pause. -/
  | noInterval
  /-- The committee cannot be addressed, whatever the memory. -/
  | committeeTooLarge
  /-- The committee does not fit into memory. -/
  | outOfMemory
deriving DecidableEq

namespace Failure

/-- The wording of a failure. -/
def message : Failure → String
  | .configMissing => "Configuration file not found"
  | .unreadable path => "cannot read " ++ path
  | .unwritable path => "cannot write " ++ path
  | .malformed path => "cannot make sense of " ++ path
  | .grid fault => fault.message
  | .noInitialEpoch => "No initial epoch configured"
  | .schedule cause => cause.message
  | .node cause => cause.message
  | .noInterval => "the interval must not be zero"
  | .committeeTooLarge => "the committee is too large"
  | .outOfMemory => "out of memory"

/-- The exit status of a failure. -/
def status : Failure → UInt8
  | .noInterval | .committeeTooLarge => 101
  | .outOfMemory => 134
  | _ => 1

end Failure

/-- The configuration that a path names. -/
def loadConfig (s : Surroundings) (path : String) : Except Failure Node.Config :=
  match s.entry path with
  | .missing => .error .configMissing
  | .unreadable => .error (.unreadable path)
  | .file text => ((readJson? text).map .ok).getD (.error (.malformed path))

/-- The text of the file that a path names. -/
def loadText (s : Surroundings) (path : String) : Except Failure String :=
  match s.entry path with
  | .file text => .ok text
  | .missing | .unreadable => .error (.unreadable path)

/-- The frame of a moment and where the moment stands, with the fields in alphabetical order. -/
def frameTree (s : Schedule) (time : Word) (f : Frame) : Tree :=
  .record [
    ("epoch", toTree (s.grid.epochAt time)),
    ("frame", toTree f),
    ("processing_deadline_time", toTree (s.deadlineTime f)),
    ("slot", toTree (s.grid.slotAt time)),
    ("timestamp", toTree time)]

/-- Demands that the addresses of a committee can be kept: in less than `2 ^ 63` bytes whatever the
memory is, and in the memory that can be had. -/
def checkCommittee (memory : Nat) (members : Word) : Except Failure Unit :=
  let bytes := 20 * members.toNat
  if 1 <<< 63 ≤ bytes then .error .committeeTooLarge
  else if memory < bytes then .error .outOfMemory
  else .ok ()

namespace Command

/-- Shows the frame of a moment under a configuration. -/
def showFrame (c : Node.Config) (time : Word) : Except Failure String := do
  c.grid.validate.mapError .grid
  let dormant ← (Schedule.dormant c.grid c.epochsPerFrame c.fastLaneSlots).mapError .schedule
  let some initialEpoch := c.initialEpoch | throw .noInitialEpoch
  let (schedule, _) ← (dormant.setInitialEpoch time initialEpoch).mapError .schedule
  let frame ← (schedule.frameAt time).mapError .schedule
  return (frameTree schedule time frame).pretty

/-- What a command produces. For the command that follows the frames this is what it does before
the first look at the clock. -/
def run (s : Surroundings) : Command → Except Failure Product
  | .init output members => do
    checkCommittee s.memory members
    return { file := some (output, writeJson (Node.Config.sample s.fresh members.toNat)) }
  | .frame config time => do
    let c ← loadConfig s config
    return { output := (← showFrame c (time.getD s.now)) ++ "\n" }
  | .simulate config scenario => do
    let c ← loadConfig s config
    let text ← loadText s scenario
    -- Both files are read before anything is played.
    let some script := readJson? text | throw (.malformed scenario)
    let report ← (Simulation.run c script).mapError .node
    return { output := report.toTree.pretty ++ "\n" }
  | .hash file => do
    let text ← loadText s file
    let some payload := Payload.parse? text | throw (.malformed file)
    return { output := (digest payload).text ++ "\n" }
  | .watch config interval _ => do
    let c ← loadConfig s config
    let _ ← (Node.create c s.now).mapError .node
    if interval = 0 then throw .noInterval
    return {}

end Command

/-- How the program ends. -/
inductive Ending where
  | done (output : String)
  | failed (cause : Failure)
  | refused (cause : UsageError)
deriving DecidableEq

namespace Ending

/-- The exit status of the program. -/
def status : Ending → UInt8
  | .done _ => 0
  | .failed cause => cause.status
  | .refused _ => 2

/-- What the program prints. -/
def output : Ending → String
  | .done output => output
  | .failed _ | .refused _ => ""

end Ending

/-- The program: how it ends, and the files after it. -/
def execute {σ : Type} [Files σ] (files : σ) (now : Word) (fresh : Nat → Address) (memory : Nat)
    (words : List String) : Ending × σ :=
  match Request.parse words with
  | .error cause => (.refused cause, files)
  | .ok (.show text) => (.done text, files)
  | .ok (.run command) =>
    match command.run ⟨Files.entry files, now, fresh, memory⟩ with
    | .error cause => (.failed cause, files)
    | .ok { output, file := none } => (.done output, files)
    | .ok { output, file := some (path, text) } =>
      match Files.write? files path text with
      | none => (.failed (.unwritable path), files)
      | some files => (.done output, files)

end ReportQuorum.CommandLine
