import ReportQuorum.CommandLine.Run
import Std.Time.DateTime.Timestamp

/-!
# The program

The command line, the files, the clock, the supply of random addresses and the pauses between two
looks at the clock. All decisions are made elsewhere.
-/

namespace ReportQuorum.CommandLine

/-- What a reader finds at the end of a path now. -/
def entryNow (path : String) : IO Entry := do
  try
    return .file (← IO.FS.readFile path)
  catch
    | .noFileOrDirectory .. => return .missing
    | _ => return .unreadable

/-- The paths of the files that a command reads. -/
def Command.paths : Command → List String
  | .init .. => []
  | .frame config _ | .watch config .. => [config]
  | .simulate config scenario => [config, scenario]
  | .hash file => [file]

/-- How many bytes can be addressed. What the machine has of them shows only when they are used. -/
def addressableMemory : Nat := 1 <<< 63

/-- The number of addresses that a command needs. -/
def Command.freshCount : Command → Nat
  | .init _ members =>
    match checkCommittee addressableMemory members with
    | .ok () => members.toNat + 3
    | .error _ => 0
  | _ => 0

/-- The seconds since the beginning of 1970. -/
def currentTime : IO Word := do
  let now ← Std.Time.Timestamp.now
  return Word.clamp now.toSecondsSinceUnixEpoch.val.toNat

/-- An address made of random bytes. -/
def randomAddress : IO Address := do
  let bytes ← IO.getRandomBytes 20
  return (Octets.ofBytes? bytes.toList).getD Octets.zero

/-- What a command sees now. -/
def surroundingsOf (command : Command) : IO Surroundings := do
  let entries ← command.paths.mapM fun path => do return (path, ← entryNow path)
  let mut pool : Array Address := #[]
  for _ in [0:command.freshCount] do
    pool := pool.push (← randomAddress)
  let supply := pool
  return {
    entry := fun path => (entries.lookup path).getD .missing
    now := ← currentTime
    fresh := fun i => supply.getD i Octets.zero
    memory := addressableMemory }

/-- Waits for a number of milliseconds, or for as long as can be waited at once. -/
def pause (interval : Word) : IO Unit := IO.sleep (min interval 0xffffffff).toUInt32

/-- Looks at the clock until the number of looks is reached, if it is limited, and tells of every new
frame. -/
partial def follow (node : Node) (interval : Word) (left : Option Nat) (seen : List Frame) :
    IO Unit := do
  let frames := node.observe seen (← currentTime)
  if frames.length ≠ seen.length then
    if let some f := frames.getLast? then
      IO.eprintln ("frame " ++ f.index.decimal ++ ", reference slot " ++ f.refSlot.decimal)
  match left with
  | some n =>
    unless n ≤ 1 do
      pause interval
      follow node interval (some (n - 1)) frames
  | none =>
    pause interval
    follow node interval none frames

/-- Carries out a command. The answer is the exit status. -/
def carryOut (command : Command) : IO UInt8 := do
  let surroundings ← surroundingsOf command
  match command.run surroundings with
  | .error cause =>
    IO.eprintln ("Error: " ++ cause.message)
    return cause.status
  | .ok product =>
    IO.print product.output
    if let some (path, text) := product.file then
      try
        IO.FS.writeFile path text
      catch _ =>
        IO.eprintln ("Error: " ++ (Failure.unwritable path).message)
        return (Failure.unwritable path).status
    if let .watch config interval ticks := command then
      if let .ok c := loadConfig surroundings config then
        if let .ok node := Node.create c surroundings.now then
          follow node interval (ticks.map Node.readingCount) []
    return 0

end ReportQuorum.CommandLine

open ReportQuorum.CommandLine in
/-- The program. -/
def main (words : List String) : IO UInt32 := do
  match Request.parse words with
  | .error cause =>
    IO.eprintln ("error: " ++ cause.message)
    return (Ending.refused cause).status.toUInt32
  | .ok (.show text) =>
    IO.print text
    return 0
  | .ok (.run command) => return (← carryOut command).toUInt32
