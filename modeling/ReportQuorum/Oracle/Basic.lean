import ReportQuorum.Oracle.Error
import ReportQuorum.Oracle.Event
import ReportQuorum.Oracle.Handler

/-!
# Oracles

An oracle is a report processor that is bound to one engine. It holds at most one report: pending
from the time it is handed over, it may be withdrawn until its processing starts, and it must start
before the end of its deadline's slot. Reference slots only grow.

A call of an oracle is atomic, as one of the engine is: the clock stands still during the call, and
if the call is part of one of the engine, during that one.

## Main definitions

* `Oracle`: the state of an oracle over a handler
* `Oracle.create`: a new oracle
* `Oracle.submit`, `Oracle.discard`: what its engine may do
* `Oracle.startProcessing`: the start of processing
* `Oracle.checkData`: whether data is what the committee agreed on
-/

namespace ReportQuorum

/-- The state of an oracle over a handler. -/
structure Oracle (η : Type) where
  /-- The name of the oracle. -/
  address : Address
  /-- The only engine that may hand over and withdraw reports. -/
  engine : Address
  grid : TimeGrid
  /-- The version that votes and data have to quote. -/
  version : Word
  /-- The greatest reference slot whose processing has started. -/
  processingSlot : Word
  report : Oracle.Report
  roles : RoleTable
  handler : η
  /-- The events that nobody has fetched yet, oldest first. -/
  events : List Oracle.Event
deriving DecidableEq

namespace Oracle

/-- What an oracle is made from. -/
structure Setup where
  address : Address
  engine : Address
  grid : TimeGrid
  version : Word
  processingSlot : Word
  /-- The first holder of the default admin role. -/
  admin : Address
deriving DecidableEq

namespace Setup

/-- The names of the fields, in their order. -/
def fieldNames : List String :=
  ["address", "consensus_contract", "chain", "consensus_version", "last_processing_ref_slot",
    "admin"]

instance : JsonForm Setup where
  toTree s := .record [
    ("address", toTree s.address),
    ("consensus_contract", toTree s.engine),
    ("chain", toTree s.grid),
    ("consensus_version", toTree s.version),
    ("last_processing_ref_slot", toTree s.processingSlot),
    ("admin", toTree s.admin)]
  ofTree? t := do
    let fields ← Json.Fields.ofTree? fieldNames t
    return {
      address := ← fields.required "address"
      engine := ← fields.required "consensus_contract"
      grid := ← fields.required "chain"
      version := ← fields.required "consensus_version"
      processingSlot := ← fields.required "last_processing_ref_slot"
      admin := ← fields.required "admin" }

instance : BinaryForm Setup where
  toBytes s := toBytes s.address ++ toBytes s.engine ++ toBytes s.grid ++ toBytes s.version ++
    toBytes s.processingSlot ++ toBytes s.admin

end Setup

variable {η φ : Type}

/-- Adds an event. -/
def emit (o : Oracle η) (event : Event) : Oracle η := { o with events := o.events ++ [event] }

/-- Adds an event if there is something to report. -/
def emitIf (o : Oracle η) (changed : Bool) (event : Event) : Oracle η :=
  if changed then o.emit event else o

/-- The oracle after its events have been fetched. -/
def drained (o : Oracle η) : Oracle η := { o with events := [] }

/-- A new oracle without a report. -/
def create (setup : Setup) (handler : η) : Except (Error φ) (Oracle η) :=
  if setup.address.isZero || setup.engine.isZero || setup.admin.isZero then .error .zeroAddress
  else
    match setup.grid.validate with
    | .error fault => .error (.grid fault)
    | .ok () =>
      .ok {
        address := setup.address
        engine := setup.engine
        grid := setup.grid
        version := setup.version
        processingSlot := setup.processingSlot
        -- No report, but its slot bounds the slots of the reports to come.
        report := ⟨Octets.zero, setup.processingSlot, 0⟩
        roles := .ofAdmin setup.admin
        handler
        events := [
          .consensusContractSet setup.engine Octets.zero,
          .consensusVersionSet setup.version 0] }

/-! ### Reports -/

/-- Demands that the slot of a deadline has not passed. -/
def checkDeadline (o : Oracle η) (now deadline : Word) : Except (Error φ) Unit :=
  if o.grid.slotAt deadline < o.grid.slotAt now then .error (.deadlineMissed deadline) else .ok ()

/-- Demands that the sender of a call is the engine that the oracle is bound to. -/
def checkSender (o : Oracle η) (sender : Address) : Except (Error φ) Unit :=
  if sender = o.engine then .ok () else .error .foreignSender

/-- Takes over a report from the engine. A pending report for an earlier reference slot is dropped,
which an event tells. -/
def submit (o : Oracle η) (now : Word) (sender : Address) (report : Digest)
    (refSlot deadline : Word) : Reply (Error φ) (Oracle η) Unit :=
  .ofExcept o do
    o.checkSender sender
    if report.isZero then throw .zeroReport
    if refSlot < o.report.refSlot then throw (.slotDecreases refSlot o.report.refSlot)
    if refSlot ≤ o.processingSlot then throw (.slotNotAfterProcessing refSlot o.processingSlot)
    o.checkDeadline now deadline
    -- The report held is lost if it was handed over but never processed.
    let missed := refSlot != o.report.refSlot && o.processingSlot != o.report.refSlot
    return { o with report := ⟨report, refSlot, deadline⟩ }
      |>.emitIf missed (.processingMissed o.report.refSlot)
      |>.emit (.reportSubmitted refSlot report deadline)

/-- Withdraws the report of a reference slot for the engine. There is nothing to do if none is
pending, or if the slot is yet to come. -/
def discard [ReportHandler η φ] (o : Oracle η) (sender : Address) (refSlot : Word) :
    Reply (Error φ) (Oracle η) Unit :=
  match o.checkSender sender with
  | .error err => ⟨.error err, o⟩
  | .ok () =>
    if refSlot < o.report.refSlot then ⟨.error (.slotDecreases refSlot o.report.refSlot), o⟩
    -- Nothing has been handed over for a slot to come.
    else if o.report.refSlot < refSlot then ⟨.ok (), o⟩
    else if refSlot ≤ o.processingSlot then ⟨.error .alreadyProcessing, o⟩
    -- It has been withdrawn before.
    else if o.report.report.isZero then ⟨.ok (), o⟩
    else
      match ReportHandler.discarded o.handler o.report with
      | ⟨.error cause, handler⟩ => ⟨.error (.handler cause), { o with handler }⟩
      | ⟨.ok (), handler⟩ =>
        ⟨.ok (), { o with handler, report.report := Octets.zero }.emit
          (.reportDiscarded refSlot o.report.report)⟩

/-- Starts the processing of the pending report. The answer is the reference slot whose processing
was the last to start before. -/
def startProcessing [ReportHandler η φ] (o : Oracle η) (now : Word) :
    Reply (Error φ) (Oracle η) Word :=
  if o.report.report.isZero then ⟨.error .nothingToProcess, o⟩
  else if o.report.refSlot = o.processingSlot then ⟨.error .alreadyProcessing, o⟩
  else
    match o.checkDeadline now o.report.deadline with
    | .error err => ⟨.error err, o⟩
    | .ok () =>
      match ReportHandler.handle o.handler o.report o.processingSlot with
      | ⟨.error cause, handler⟩ => ⟨.error (.handler cause), { o with handler }⟩
      | ⟨.ok (), handler⟩ =>
        ⟨.ok o.processingSlot, { o with handler, processingSlot := o.report.refSlot }.emit
          (.processingStarted o.report.refSlot o.report.report)⟩

/-- Demands that data is for the report held: its reference slot, its version and its digest. -/
def checkData (o : Oracle η) (refSlot version : Word) (data : Digest) : Except (Error φ) Unit :=
  if refSlot ≠ o.report.refSlot then .error (.wrongSlot o.report.refSlot refSlot)
  else if version ≠ o.version then .error (.wrongVersion o.version version)
  else if data ≠ o.report.report then .error (.wrongReport o.report.report data)
  else .ok ()

/-- The report held, with its stage. -/
def reportStatus (o : Oracle η) : ReportStatus :=
  { report := o.report.report
    refSlot := o.report.refSlot
    deadline := o.report.deadline
    isProcessing := !o.report.report.isZero && o.report.refSlot == o.processingSlot }

/-! ### Administration -/

/-- Demands that the caller of a call holds a role. -/
def demand (o : Oracle η) (role : Role) (caller : Address) : Except (Error φ) Unit :=
  (o.roles.check role caller).mapError .missingRole

/-- Binds the oracle to another engine on the same time grid, which must not begin before the
reference slot being processed. -/
def setEngine (o : Oracle η) (caller engine : Address) (grid : TimeGrid) (initialRefSlot : Word) :
    Reply (Error φ) (Oracle η) Unit :=
  .ofExcept o do
    o.demand .manageConsensusContract caller
    if engine.isZero then throw .zeroAddress
    if engine = o.engine then throw .sameAddress
    if grid ≠ o.grid then throw .otherGrid
    if initialRefSlot < o.processingSlot then
      throw (.initialSlotPassed initialRefSlot o.processingSlot)
    return { o with engine }.emit (.consensusContractSet engine o.engine)

/-- Changes the version that votes and data have to quote. -/
def setVersion (o : Oracle η) (caller : Address) (version : Word) :
    Reply (Error φ) (Oracle η) Unit :=
  .ofExcept o do
    o.demand .manageConsensusVersion caller
    if version = o.version then throw .sameVersion
    return { o with version }.emit (.consensusVersionSet version o.version)

/-- Grants a role on behalf of a holder of the default admin role. -/
def grantRole (o : Oracle η) (caller : Address) (role : Role) (account : Address) :
    Reply (Error φ) (Oracle η) Unit :=
  .ofExcept o do
    let (roles, changed) ← (o.roles.grant caller role account).mapError .missingRole
    return { o with roles }.emitIf changed (.roleGranted role account caller)

/-- Revokes a role on behalf of a holder of the default admin role. -/
def revokeRole (o : Oracle η) (caller : Address) (role : Role) (account : Address) :
    Reply (Error φ) (Oracle η) Unit :=
  .ofExcept o do
    let (roles, changed) ← (o.roles.revoke caller role account).mapError .missingRole
    return { o with roles }.emitIf changed (.roleRevoked role account caller)

/-- An oracle is a report processor. -/
instance [ReportHandler η φ] : ReportProcessor (Oracle η) (Error φ) where
  address := Oracle.address
  version := Oracle.version
  processingSlot := Oracle.processingSlot
  submit := Oracle.submit
  discard o _ sender refSlot := o.discard sender refSlot

end Oracle

end ReportQuorum
