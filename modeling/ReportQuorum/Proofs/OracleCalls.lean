import ReportQuorum.Oracle.Command
import ReportQuorum.Proofs.Success
import ReportQuorum.Roster

/-!
# How a call of an oracle ends

An oracle takes a report under conditions of its own and gives it back under others, and a handler
may refuse at the very end. What each call may do is listed here, so that it need not be looked up
in the calls again.

## Main definitions

* `Oracle.held`: the report held and not withdrawn, with its reference slot
* `Oracle.Event.submitted?`, `Oracle.Event.discarded?`: the reports that events tell of
* `Oracle.Accepts`: the conditions under which a report is taken
* `Oracle.Discarded`, `Oracle.Started`: the ways in which withdrawing a report and starting to
  process it end
* `Oracle.Altered`: what a call makes of an oracle

## Main results

* `Oracle.submit_eq_ok`, `Oracle.submit_refused`: what handing over a report does
* `Oracle.created_of_create`: what a new oracle is like
* `Oracle.discarded`, `Oracle.started`, `Oracle.altered`: the lists are complete
-/

namespace ReportQuorum.Oracle

variable {η φ : Type} {o o' p : Oracle η} {now : Word} {sender : Address} {report : Digest}
  {refSlot deadline : Word}

/-- The report held and not withdrawn, with its reference slot. -/
def held (o : Oracle η) : Option Vote :=
  if o.report.report = Octets.zero then none else some ⟨o.report.refSlot, o.report.report⟩

theorem held_eq_none : o.held = none ↔ o.report.report = Octets.zero := by
  rw [held]
  split <;> simp_all

theorem held_eq_some : o.held = some ⟨refSlot, report⟩ ↔
    o.report.refSlot = refSlot ∧ o.report.report = report ∧ report ≠ Octets.zero := by
  rw [held]
  split
  next hzero =>
    constructor
    · intro h
      cases h
    · rintro ⟨-, rfl, hne⟩
      exact absurd hzero hne
  next hne =>
    simp only [Option.some.injEq, Vote.mk.injEq]
    constructor
    · rintro ⟨rfl, rfl⟩
      exact ⟨rfl, rfl, hne⟩
    · rintro ⟨rfl, rfl, -⟩
      exact ⟨rfl, rfl⟩

theorem held_congr (h : o'.report = o.report) : o'.held = o.held := by rw [held, held, h]

/-- The report that an event says was handed over, with its reference slot. -/
def Event.submitted? : Event → Option Vote
  | .reportSubmitted refSlot report _ => some ⟨refSlot, report⟩
  | _ => none

/-- The report that an event says was given back, with its reference slot. -/
def Event.discarded? : Event → Option Vote
  | .reportDiscarded refSlot report => some ⟨refSlot, report⟩
  | _ => none

/-! ### New oracles -/

/-- What a new oracle is like. -/
structure Created (o : Oracle η) (setup : Setup) : Prop where
  engine : o.engine = setup.engine
  grid : o.grid = setup.grid
  processingSlot : o.processingSlot = setup.processingSlot
  report : o.report = ⟨Octets.zero, setup.processingSlot, 0⟩

theorem created_of_create {setup : Setup} {handler : η}
    (h : create (φ := φ) setup handler = .ok o) : o.Created setup := by
  rw [create, refusal_eq_ok (by simp)] at h
  obtain ⟨-, h⟩ := h
  split at h
  · cases h
  · cases h
    exact ⟨rfl, rfl, rfl, rfl⟩

/-- A new oracle tells of its engine and of its version. -/
theorem events_of_create {setup : Setup} {handler : η}
    (h : create (φ := φ) setup handler = .ok o) :
    o.events = [.consensusContractSet setup.engine Octets.zero,
      .consensusVersionSet setup.version 0] := by
  rw [create, refusal_eq_ok (by simp)] at h
  obtain ⟨-, h⟩ := h
  split at h
  · cases h
  · cases h
    rfl

/-! ### Roles -/

/-- A role is granted by a holder of the default admin role. -/
theorem grantRole_eq_ok {caller account : Address} {role : Role} :
    o.grantRole (φ := φ) caller role account = ⟨.ok (), o'⟩ ↔
      o.roles.holds .defaultAdmin caller = true ∧
        { o with roles := o.roles.insert role account }.emitIf (!o.roles.holds role account)
          (.roleGranted role account caller) = o' := by
  simp only [grantRole, Reply.ofExcept_eq_ok, bind_eq_ok, mapError_eq_ok, RoleTable.grant,
    RoleTable.check_eq_ok, pure_eq_ok]
  constructor
  · rintro ⟨_, ⟨_, hadmin, rfl⟩, rfl⟩
    exact ⟨hadmin, rfl⟩
  · rintro ⟨hadmin, rfl⟩
    exact ⟨_, ⟨(), hadmin, rfl⟩, rfl⟩

/-! ### Handing over -/

/-- The conditions under which an oracle takes a report. -/
structure Accepts (o : Oracle η) (now : Word) (sender : Address) (report : Digest)
    (refSlot deadline : Word) : Prop where
  sender : sender = o.engine
  report : report ≠ Octets.zero
  notBefore : o.report.refSlot ≤ refSlot
  unprocessed : o.processingSlot < refSlot
  timely : o.grid.slotAt now ≤ o.grid.slotAt deadline

/-- The oracle after it has taken a report. -/
def taking (o : Oracle η) (report : Digest) (refSlot deadline : Word) : Oracle η :=
  { o with report := ⟨report, refSlot, deadline⟩ }
    |>.emitIf (refSlot != o.report.refSlot && o.processingSlot != o.report.refSlot)
      (.processingMissed o.report.refSlot)
    |>.emit (.reportSubmitted refSlot report deadline)

@[simp] theorem emitIf_report (changed : Bool) (event : Event) :
    (o.emitIf changed event).report = o.report := by
  cases changed <;> rfl

@[simp] theorem emitIf_engine (changed : Bool) (event : Event) :
    (o.emitIf changed event).engine = o.engine := by
  cases changed <;> rfl

@[simp] theorem emitIf_grid (changed : Bool) (event : Event) :
    (o.emitIf changed event).grid = o.grid := by
  cases changed <;> rfl

@[simp] theorem emitIf_roles (changed : Bool) (event : Event) :
    (o.emitIf changed event).roles = o.roles := by
  cases changed <;> rfl

@[simp] theorem emitIf_processingSlot (changed : Bool) (event : Event) :
    (o.emitIf changed event).processingSlot = o.processingSlot := by
  cases changed <;> rfl

@[simp] theorem emitIf_events (changed : Bool) (event : Event) :
    (o.emitIf changed event).events = o.events ++ if changed then [event] else [] := by
  cases changed
  · exact (List.append_nil _).symm
  · rfl

/-- What is told of the report held when one for a reference slot is taken. -/
def passedOver (o : Oracle η) (refSlot : Word) : List Event :=
  if refSlot != o.report.refSlot && o.processingSlot != o.report.refSlot then
    [.processingMissed o.report.refSlot]
  else []

@[simp] theorem taking_report : (o.taking report refSlot deadline).report =
    ⟨report, refSlot, deadline⟩ := by
  simp [taking, emit]

@[simp] theorem taking_engine : (o.taking report refSlot deadline).engine = o.engine := by
  simp [taking, emit]

@[simp] theorem taking_grid : (o.taking report refSlot deadline).grid = o.grid := by
  simp [taking, emit]

@[simp] theorem taking_processingSlot :
    (o.taking report refSlot deadline).processingSlot = o.processingSlot := by
  simp [taking, emit]

theorem taking_events : (o.taking report refSlot deadline).events =
    o.events ++ (o.passedOver refSlot ++ [.reportSubmitted refSlot report deadline]) := by
  simp [taking, emit, passedOver]

/-- An oracle that takes a report says so. -/
theorem mem_taking : .reportSubmitted refSlot report deadline ∈
    (o.taking report refSlot deadline).events.drop o.events.length := by
  rw [taking_events, List.drop_left]
  simp

@[simp] theorem checkDeadline_eq_ok {u : Unit} :
    o.checkDeadline (φ := φ) now deadline = .ok u ↔ o.grid.slotAt now ≤ o.grid.slotAt deadline := by
  rw [checkDeadline, refusal_eq_ok (by simp)]
  simp

@[simp] theorem checkSender_eq_ok {u : Unit} :
    o.checkSender (φ := φ) sender = .ok u ↔ sender = o.engine := by
  rw [checkSender]
  split <;> simp_all

/-- A report is taken exactly under the conditions. -/
theorem submit_eq_ok :
    o.submit (φ := φ) now sender report refSlot deadline = ⟨.ok (), o'⟩ ↔
      o.Accepts now sender report refSlot deadline ∧ o.taking report refSlot deadline = o' := by
  simp only [submit, Reply.ofExcept_eq_ok, bind_eq_ok, checkSender_eq_ok]
  constructor
  · rintro ⟨-, hsender, h⟩
    -- Every condition is one that would have ended the call.
    rw [refusal_eq_ok (by simp)] at h
    obtain ⟨hzero, h⟩ := h
    rw [refusal_eq_ok (by simp)] at h
    obtain ⟨hbefore, h⟩ := h
    rw [refusal_eq_ok (by simp)] at h
    obtain ⟨hprocessed, h⟩ := h
    simp only [bind_eq_ok, checkDeadline_eq_ok, pure_eq_ok] at h
    obtain ⟨-, htimely, rfl⟩ := h
    refine ⟨⟨hsender, fun h => hzero (Octets.isZero_iff.mpr h), ?_, ?_, htimely⟩, rfl⟩
    · exact UInt64.not_lt.mp hbefore
    · exact UInt64.not_le.mp hprocessed
  · rintro ⟨h, rfl⟩
    refine ⟨(), h.sender, ?_⟩
    rw [refusal_eq_ok (by simp), refusal_eq_ok (by simp), refusal_eq_ok (by simp)]
    refine ⟨fun hzero => h.report (Octets.isZero_iff.mp hzero), UInt64.not_lt.mpr h.notBefore,
      UInt64.not_le.mpr h.unprocessed, ?_⟩
    simp only [bind_eq_ok, checkDeadline_eq_ok, pure_eq_ok]
    exact ⟨(), h.timely, rfl⟩

/-- A report that is refused leaves the oracle as it was. -/
theorem submit_refused {err : Error φ}
    (h : o.submit now sender report refSlot deadline = ⟨.error err, o'⟩) : o' = o :=
  Reply.eq_of_ofExcept_eq_error h

/-! ### Withdrawing -/

section Handler

variable [ReportHandler η φ]

/-- The ways in which withdrawing a report ends. -/
inductive Discarded (o : Oracle η) (sender : Address) (refSlot : Word) :
    Reply (Error φ) (Oracle η) Unit → Prop
  /-- It is refused and changes nothing. -/
  | refused (err : Error φ) (h : sender ≠ o.engine ∨ refSlot < o.report.refSlot ∨
      o.report.refSlot = refSlot ∧ refSlot ≤ o.processingSlot) :
      Discarded o sender refSlot ⟨.error err, o⟩
  /-- Nothing is pending for the reference slot. -/
  | nothing (h : o.report.refSlot < refSlot ∨ o.held = none) :
      Discarded o sender refSlot ⟨.ok (), o⟩
  /-- The handler refuses. -/
  | handlerRefused {cause : φ} {handler : η}
      (hh : ReportHandler.discarded o.handler o.report = ⟨.error cause, handler⟩) :
      Discarded o sender refSlot ⟨.error (.handler cause), { o with handler }⟩
  /-- The pending report is withdrawn. -/
  | withdrawn {handler : η} (own : sender = o.engine) (slot : o.report.refSlot = refSlot)
      (unprocessed : o.processingSlot < refSlot)
      (hh : ReportHandler.discarded o.handler o.report = ⟨.ok (), handler⟩) :
      Discarded o sender refSlot
        ⟨.ok (), { o with handler, report.report := Octets.zero }.emit
          (.reportDiscarded refSlot o.report.report)⟩

theorem discarded (o : Oracle η) (sender : Address) (refSlot : Word) :
    o.Discarded sender refSlot (o.discard sender refSlot) := by
  rw [discard]
  cases hsender : o.checkSender (φ := φ) sender with
  | error err =>
    refine .refused err (.inl fun h => ?_)
    rw [checkSender_eq_ok (u := ()) |>.mpr h] at hsender
    cases hsender
  | ok u =>
    dsimp only
    by_cases hbefore : refSlot < o.report.refSlot
    · rw [if_pos hbefore]
      exact .refused _ (.inr (.inl hbefore))
    rw [if_neg hbefore]
    by_cases hcoming : o.report.refSlot < refSlot
    · rw [if_pos hcoming]
      exact .nothing (.inl hcoming)
    rw [if_neg hcoming]
    have hslot : o.report.refSlot = refSlot :=
      UInt64.le_antisymm (UInt64.not_lt.mp hbefore) (UInt64.not_lt.mp hcoming)
    by_cases hprocessed : refSlot ≤ o.processingSlot
    · rw [if_pos hprocessed]
      exact .refused _ (.inr (.inr ⟨hslot, hprocessed⟩))
    rw [if_neg hprocessed]
    by_cases hzero : o.report.report.isZero = true
    · rw [if_pos hzero]
      exact .nothing (.inr (held_eq_none.mpr (Octets.isZero_iff.mp hzero)))
    rw [if_neg hzero]
    cases hh : ReportHandler.discarded o.handler o.report with
    | mk result handler =>
      cases result with
      | error cause => exact .handlerRefused hh
      | ok u =>
        exact .withdrawn (checkSender_eq_ok.mp hsender) hslot (UInt64.not_le.mp hprocessed) hh

/-- What an oracle keeps when it refuses to withdraw a report: all but its handler. -/
theorem eq_of_discard_eq_error {err : Error φ} (h : o.discard sender refSlot = ⟨.error err, p⟩) :
    ∃ handler, { o with handler } = p := by
  have hd := o.discarded sender refSlot
  rw [h] at hd
  cases hd with
  | refused _ => exact ⟨o.handler, rfl⟩
  | handlerRefused _ => exact ⟨_, rfl⟩

/-- What an oracle that holds a report is after it has withdrawn it. -/
theorem eq_of_discard_eq_ok {d : Digest} (hheld : o.held = some ⟨refSlot, d⟩)
    (h : o.discard (φ := φ) sender refSlot = ⟨.ok (), p⟩) :
    o.report.refSlot = refSlot ∧ ∃ handler,
      { o with handler, report.report := Octets.zero }.emit (.reportDiscarded refSlot d) = p := by
  obtain ⟨hslot, hreport, -⟩ := held_eq_some.mp hheld
  have hd := o.discarded (φ := φ) sender refSlot
  rw [h] at hd
  cases hd with
  | nothing hnothing =>
    -- Something is held for the slot, so there is something to give back.
    obtain hlt | hnone := hnothing
    · rw [hslot] at hlt
      exact absurd hlt (UInt64.lt_irrefl _)
    · rw [hheld] at hnone
      cases hnone
  | withdrawn _ _ _ _ =>
    rw [hreport]
    exact ⟨hslot, _, rfl⟩

/-! ### Processing -/

/-- The ways in which starting to process the pending report ends. -/
inductive Started (o : Oracle η) (now : Word) : Reply (Error φ) (Oracle η) Word → Prop
  /-- It is refused and changes nothing. -/
  | refused (err : Error φ) : Started o now ⟨.error err, o⟩
  /-- The handler refuses. -/
  | handlerRefused {cause : φ} {handler : η}
      (hh : ReportHandler.handle o.handler o.report o.processingSlot = ⟨.error cause, handler⟩) :
      Started o now ⟨.error (.handler cause), { o with handler }⟩
  /-- The reference slot held is marked. -/
  | started {handler : η} (pending : o.report.report ≠ Octets.zero)
      (new : o.report.refSlot ≠ o.processingSlot)
      (timely : o.grid.slotAt now ≤ o.grid.slotAt o.report.deadline)
      (hh : ReportHandler.handle o.handler o.report o.processingSlot = ⟨.ok (), handler⟩) :
      Started o now
        ⟨.ok o.processingSlot, { o with handler, processingSlot := o.report.refSlot }.emit
          (.processingStarted o.report.refSlot o.report.report)⟩

theorem started (o : Oracle η) (now : Word) : o.Started now (o.startProcessing now) := by
  rw [startProcessing]
  by_cases hzero : o.report.report.isZero = true
  · rw [if_pos hzero]
    exact .refused _
  rw [if_neg hzero]
  by_cases hslot : o.report.refSlot = o.processingSlot
  · rw [if_pos hslot]
    exact .refused _
  rw [if_neg hslot]
  cases htimely : o.checkDeadline (φ := φ) now o.report.deadline with
  | error err => exact .refused err
  | ok u =>
    dsimp only
    cases hh : ReportHandler.handle o.handler o.report o.processingSlot with
    | mk result handler =>
      cases result with
      | error cause => exact .handlerRefused hh
      | ok u =>
        exact .started (fun h => hzero (Octets.isZero_iff.mpr h)) hslot
          (checkDeadline_eq_ok.mp htimely) hh

/-! ### Calls -/

/-- What a call makes of an oracle. -/
inductive Altered (o : Oracle η) (now : Word) : Command → Oracle η → Prop
  /-- The call is refused or there is nothing to do. At most the handler knows of it. -/
  | unmoved {c : Command} (handler : η) : Altered o now c { o with handler }
  | taken {sender : Address} {report : Digest} {refSlot deadline : Word}
      (h : o.Accepts now sender report refSlot deadline) :
      Altered o now (.submit sender report refSlot deadline) (o.taking report refSlot deadline)
  | withdrawn {sender : Address} {refSlot : Word} {handler : η} (own : sender = o.engine)
      (slot : o.report.refSlot = refSlot) (unprocessed : o.processingSlot < refSlot) :
      Altered o now (.discard sender refSlot)
        ({ o with handler, report.report := Octets.zero }.emit
          (.reportDiscarded refSlot o.report.report))
  | started {handler : η} (pending : o.report.report ≠ Octets.zero)
      (new : o.report.refSlot ≠ o.processingSlot) :
      Altered o now .startProcessing
        ({ o with handler, processingSlot := o.report.refSlot }.emit
          (.processingStarted o.report.refSlot o.report.report))
  | rebound {caller engine : Address} {grid : TimeGrid} {initialRefSlot : Word} :
      Altered o now (.setEngine caller engine grid initialRefSlot)
        ({ o with engine }.emit (.consensusContractSet engine o.engine))
  | reversioned {caller : Address} {version : Word} :
      Altered o now (.setVersion caller version)
        ({ o with version }.emit (.consensusVersionSet version o.version))
  | granted {caller : Address} {role : Role} {account : Address} :
      Altered o now (.grantRole caller role account)
        ({ o with roles := o.roles.insert role account }.emitIf (!o.roles.holds role account)
          (.roleGranted role account caller))
  | revoked {caller : Address} {role : Role} {account : Address} :
      Altered o now (.revokeRole caller role account)
        ({ o with roles := o.roles.erase role account }.emitIf (o.roles.holds role account)
          (.roleRevoked role account caller))

theorem Altered.refused {c : Command} : o.Altered now c o :=
  .unmoved o.handler

omit [ReportHandler η φ] in
/-- A change without partial effects is refused as a whole or made. -/
theorem altered_ofExcept {c : Command} {x : Except (Error φ) (Oracle η)}
    (h : ∀ o', x = .ok o' → o.Altered now c o') :
    o.Altered now c (perform.answerNone (.ofExcept o x)).state := by
  obtain ⟨err, -, hx⟩ | ⟨o', hok, hx⟩ := Reply.ofExcept_cases o x
  · rw [hx]
    exact .refused
  · rw [hx]
    exact h o' hok

/-- A call makes nothing of an oracle but what is listed. -/
theorem altered (o : Oracle η) (now : Word) (c : Command) :
    o.Altered now c (o.perform now c).state := by
  cases c with
  | submit sender report refSlot deadline =>
    rw [perform]
    cases h : o.submit (φ := φ) now sender report refSlot deadline with
    | mk result o' =>
      cases result with
      | error err =>
        obtain rfl := submit_refused h
        exact .refused
      | ok u =>
        obtain ⟨haccepts, rfl⟩ := submit_eq_ok.mp h
        exact .taken haccepts
  | discard sender refSlot =>
    have hd := o.discarded (φ := φ) sender refSlot
    rw [perform]
    cases h : o.discard (φ := φ) sender refSlot with
    | mk result o' =>
      rw [h] at hd
      cases hd with
      | refused _ _ => exact .refused
      | nothing _ => exact .refused
      | handlerRefused _ => exact .unmoved _
      | withdrawn own slot unprocessed _ => exact .withdrawn own slot unprocessed
  | startProcessing =>
    have hs := o.started (φ := φ) now
    rw [perform]
    cases h : o.startProcessing (φ := φ) now with
    | mk result o' =>
      rw [h] at hs
      cases hs with
      | refused _ => exact .refused
      | handlerRefused _ => exact .unmoved _
      | started pending new _ _ => exact .started pending new
  | setEngine caller engine grid initialRefSlot =>
    refine altered_ofExcept fun o' h => ?_
    obtain ⟨-, -, h⟩ := bind_eq_ok.mp h
    rw [refusal_eq_ok (by simp)] at h
    obtain ⟨-, h⟩ := h
    rw [refusal_eq_ok (by simp)] at h
    obtain ⟨-, h⟩ := h
    rw [refusal_eq_ok (by simp)] at h
    obtain ⟨-, h⟩ := h
    rw [refusal_eq_ok (by simp), pure_eq_ok] at h
    obtain ⟨-, rfl⟩ := h
    exact .rebound
  | setVersion caller version =>
    refine altered_ofExcept fun o' h => ?_
    obtain ⟨-, -, h⟩ := bind_eq_ok.mp h
    rw [refusal_eq_ok (by simp), pure_eq_ok] at h
    obtain ⟨-, rfl⟩ := h
    exact .reversioned
  | grantRole caller role account =>
    refine altered_ofExcept fun o' h => ?_
    simp only [bind_eq_ok, mapError_eq_ok, RoleTable.grant, pure_eq_ok] at h
    obtain ⟨-, ⟨-, -, rfl⟩, rfl⟩ := h
    exact .granted
  | revokeRole caller role account =>
    refine altered_ofExcept fun o' h => ?_
    simp only [bind_eq_ok, mapError_eq_ok, RoleTable.revoke, pure_eq_ok] at h
    obtain ⟨-, ⟨-, -, rfl⟩, rfl⟩ := h
    exact .revoked

end Handler

end ReportQuorum.Oracle
