import ReportQuorum.Word

/-!
# Subcommands and their options

The program has five subcommands. Every option of theirs takes a value, which is a path or a number.

## Main definitions

* `Verb`: a subcommand
* `Setting`: an option
* `Verb.settings`: the options of a subcommand
* `Setting.parse?`: the value that a word stands for
-/

namespace ReportQuorum.CommandLine

/-- The name of the program. -/
def programName : String := "concord"

/-- What the program says of itself when it is asked for its version. -/
def versionLine : String := programName ++ " 0.1.0\n"

/-- A subcommand. -/
inductive Verb where
  | init
  | frame
  | simulate
  | hash
  | watch
deriving DecidableEq, Repr

/-- An option of a subcommand. -/
inductive Setting where
  | output
  | members
  | config
  | time
  | scenario
  | file
  | interval
  | ticks
deriving DecidableEq, Repr

namespace Verb

/-- All subcommands, in the order in which help lists them. -/
def all : List Verb := [.init, .frame, .simulate, .hash, .watch]

/-- The word for a subcommand. -/
def name : Verb → String
  | .init => "init"
  | .frame => "frame"
  | .simulate => "simulate"
  | .hash => "hash"
  | .watch => "watch"

/-- What a subcommand does. -/
def summary : Verb → String
  | .init => "Initialize a new configuration with a fresh committee"
  | .frame => "Show the frame at a point in time"
  | .simulate => "Replay a scenario file against an in-process engine and oracle"
  | .hash => "Compute the report hash of a JSON payload"
  | .watch => "Log frame transitions against the system clock"

/-- The options of a subcommand, in the order in which help lists them. -/
def settings : Verb → List Setting
  | .init => [.output, .members]
  | .frame => [.config, .time]
  | .simulate => [.config, .scenario]
  | .hash => [.file]
  | .watch => [.config, .interval, .ticks]

/-- The subcommand that a word stands for. -/
def ofName? (s : String) : Option Verb := all.find? (·.name = s)

/-- A subcommand is the one its name stands for. -/
theorem ofName?_name (v : Verb) : ofName? v.name = some v := by
  cases v <;> rfl

end Verb

/-- Whether an option has to be given, and what it is if it is not. -/
inductive Presence where
  | required
  | optional
  | preset (value : String)
deriving DecidableEq, Repr

/-- The value of an option. -/
inductive Value where
  | path (p : String)
  | number (n : Word)
deriving DecidableEq

namespace Setting

/-- The long name of an option, without its two dashes. -/
def name : Setting → String
  | .output => "output"
  | .members => "members"
  | .config => "config"
  | .time => "at"
  | .scenario => "scenario"
  | .file => "file"
  | .interval => "interval-ms"
  | .ticks => "max-ticks"

/-- The letter of an option, if it has one. -/
def letter? : Setting → Option Char
  | .output => some 'o'
  | .members => some 'm'
  | .config => some 'c'
  | .scenario => some 's'
  | .file => some 'f'
  | .time | .interval | .ticks => none

/-- What an option means. -/
def summary : Setting → String
  | .output => "Output path for configuration file"
  | .members => "Number of committee members to generate"
  | .config => "Path to configuration file"
  | .time => "Unix timestamp, defaults to now"
  | .scenario => "Scenario JSON file"
  | .file => "Payload JSON file"
  | .interval => "Poll interval in milliseconds"
  | .ticks => "Stop after this many polls"

/-- Whether an option has to be given, and what it is if it is not. -/
def presence : Setting → Presence
  | .output | .config => .preset "config.json"
  | .members => .preset "3"
  | .interval => .preset "1000"
  | .time | .ticks => .optional
  | .scenario | .file => .required

/-- Whether the value of an option is a path; otherwise it is a number. -/
def isPath : Setting → Bool
  | .output | .config | .scenario | .file => true
  | .members | .time | .interval | .ticks => false

/-- The word that a string of digits stands for. A plus sign may stand before them. -/
def number? (s : String) : Option Word :=
  let digits :=
    match s.toList with
    | '+' :: cs => cs
    | cs => cs
  if digits.isEmpty || !digits.all Char.isDigit then none
  else
    let n := digits.foldl (fun n c => 10 * n + (c.toNat - '0'.toNat)) 0
    if n < UInt64.size then some (UInt64.ofNat n) else none

/-- The value that a word stands for. A path has at least one character. -/
def parse? (k : Setting) (s : String) : Option Value :=
  if k.isPath then if s.isEmpty then none else some (.path s)
  else (number? s).map .number

end Setting

end ReportQuorum.CommandLine
