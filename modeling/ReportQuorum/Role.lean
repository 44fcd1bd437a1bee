import ReportQuorum.Json.Record

/-!
# Roles

What an account may do to an engine or a processor is a set of roles.

## Main definitions

* `Role`: an administrative capability
* `Role.name`, `Role.title`: its names in data and in messages
* `Role.index`: its number in the binary form

## Main results

* `Role.ofName?_name`: a role is the one its name stands for
-/

namespace ReportQuorum

/-- An administrative capability. -/
inductive Role where
  /-- May grant and revoke every role, and move the initial epoch. -/
  | defaultAdmin
  /-- May change the roster, and the quorum except to disable it. -/
  | manageMembersAndQuorum
  /-- May set the quorum that cannot be reached. -/
  | disableConsensus
  /-- May change the lengths of frames and fast lane. -/
  | manageFrameConfig
  /-- May change the length of the fast lane. -/
  | manageFastLaneConfig
  /-- May replace the report processor. -/
  | manageReportProcessor
  /-- May bind a processor to another engine. -/
  | manageConsensusContract
  /-- May change the version that votes quote. -/
  | manageConsensusVersion
deriving DecidableEq, Repr

namespace Role

/-- All roles, in the order of their numbers. -/
def all : List Role :=
  [.defaultAdmin, .manageMembersAndQuorum, .disableConsensus, .manageFrameConfig,
    .manageFastLaneConfig, .manageReportProcessor, .manageConsensusContract, .manageConsensusVersion]

/-- The number of a role. -/
def index : Role → Nat
  | .defaultAdmin => 0
  | .manageMembersAndQuorum => 1
  | .disableConsensus => 2
  | .manageFrameConfig => 3
  | .manageFastLaneConfig => 4
  | .manageReportProcessor => 5
  | .manageConsensusContract => 6
  | .manageConsensusVersion => 7

/-- The name of a role in data. -/
def name : Role → String
  | .defaultAdmin => "DEFAULT_ADMIN"
  | .manageMembersAndQuorum => "MANAGE_MEMBERS_AND_QUORUM"
  | .disableConsensus => "DISABLE_CONSENSUS"
  | .manageFrameConfig => "MANAGE_FRAME_CONFIG"
  | .manageFastLaneConfig => "MANAGE_FAST_LANE_CONFIG"
  | .manageReportProcessor => "MANAGE_REPORT_PROCESSOR"
  | .manageConsensusContract => "MANAGE_CONSENSUS_CONTRACT"
  | .manageConsensusVersion => "MANAGE_CONSENSUS_VERSION"

/-- The name of a role in messages. -/
def title (r : Role) : String := r.name ++ "_ROLE"

/-- The role that a name stands for. -/
def ofName? (s : String) : Option Role := all.find? (·.name = s)

/-- A role is the one its name stands for. -/
theorem ofName?_name (r : Role) : ofName? r.name = some r := by
  cases r <;> rfl

/-- A role is written as its name; it may also be read from an object with its name as the only key
and a null as its value. -/
instance : JsonForm Role where
  toTree r := .text r.name
  ofTree?
    | .string (some s) => ofName? s
    | .object [(some s, .null)] => ofName? s
    | _ => none

instance : BinaryForm Role := ⟨fun r => Word.lowBytes 4 r.index⟩

end Role

end ReportQuorum
