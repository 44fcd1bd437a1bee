import ReportQuorum.Proofs.Refusals

/-!
# Calls write by write

A call of an engine can be made in place: every field is written when it is known, and every event
is added when it happens, also if a later step of the call is refused. What has been written by then
is taken back in one of three ways. Most calls note the engine before they begin and put its fields
back; a replacement puts back the old processor and drops its event; the remaining calls write only
after the last step that can be refused.

## Main definitions

* `Engine.Script`: a piece of a call that writes as it goes
* `Engine.Snapshot`: what is noted before a call begins
* `Engine.Script.transact`: a piece of a call that is taken back if it is refused
* `Engine.execute`: the reply to a call made in place
* `Engine.Midway`: what no script changes

## Main results

* `Engine.Midway.restore`: the fields of an engine can be put back from a snapshot
* `Engine.Script.reply_transact`: a refused piece of a call leaves the engine as it was but for its
  processor
-/

namespace ReportQuorum.Engine

open ReportProcessor (Asked)

variable {π ε α β : Type}

/-! ### Snapshots -/

/-- What is noted of an engine before a call begins. Of its events, their number is enough. -/
structure Snapshot where
  schedule : Schedule
  roster : Roster
  quorum : Word
  tally : Tally
  roles : RoleTable
  eventCount : Nat

def snapshot (e : Engine π) : Snapshot :=
  { schedule := e.schedule, roster := e.roster, quorum := e.quorum, tally := e.tally
    roles := e.roles, eventCount := e.events.length }

/-- Puts the fields back and drops the events added since. -/
def restore (e : Engine π) (s : Snapshot) : Engine π :=
  { e with
    schedule := s.schedule
    roster := s.roster
    quorum := s.quorum
    tally := s.tally
    roles := s.roles
    events := e.events.take s.eventCount }

/-! ### Scripts -/

/-- A piece of a call that writes to the engine as it goes. If it is refused, what it has written
stays. -/
abbrev Script (π ε α : Type) := EStateM (Error ε) (Engine π) α

namespace Script

/-- What a script answers, and the engine it leaves. -/
def reply (s : Script π ε α) (e : Engine π) : Reply (Error ε) (Engine π) α :=
  match s.run e with
  | .ok a e' => ⟨.ok a, e'⟩
  | .error err e' => ⟨.error err, e'⟩

/-- Goes on with the result of a check, or is refused for its fault. -/
def ofExcept (x : Except (Error ε) α) : Script π ε α := MonadExcept.ofExcept x

def emit (event : Event) : Script π ε Unit := modify (·.emit event)

def emitIf (changed : Bool) (event : Event) : Script π ε Unit := modify (·.emitIf changed event)

/-- Calls the processor under the name of the engine. The processor is left as the call leaves it,
also if it refuses. -/
def consult (call : π → Address → Reply ε π Unit) : Script π ε Unit := do
  let e ← get
  let r := call e.processor e.address
  modify ({ · with processor := r.state })
  ofExcept (r.result.mapError .processor)

/-- Does something and takes it back if it is refused. -/
def transact (s : Script π ε α) : Script π ε α := do
  let before := (← get).snapshot
  try
    s
  catch err =>
    modify (·.restore before)
    throw err

/-- Does something on behalf of a holder of a role, and takes it back if it is refused. -/
def transactAs (role : Role) (caller : Address) (s : Script π ε α) : Script π ε α := do
  ofExcept ((← get).demand role caller)
  transact s

/-! ### The calls -/

def grantRole (caller : Address) (role : Role) (account : Address) : Script π ε Unit := do
  let (roles, changed) ←
    ofExcept (((← get).roles.grant caller role account).mapError .missingRole)
  modify ({ · with roles })
  emitIf changed (.roleGranted role account caller)

def revokeRole (caller : Address) (role : Role) (account : Address) : Script π ε Unit := do
  let (roles, changed) ←
    ofExcept (((← get).roles.revoke caller role account).mapError .missingRole)
  modify ({ · with roles })
  emitIf changed (.roleRevoked role account caller)

def setFastLane (caller : Address) (fastLaneSlots : Word) : Script π ε Unit := do
  ofExcept ((← get).demand .manageFastLaneConfig caller)
  let (schedule, changed) ←
    ofExcept (((← get).schedule.setFastLane fastLaneSlots).mapError .schedule)
  modify ({ · with schedule })
  emitIf changed (.fastLaneConfigSet fastLaneSlots)

def setFrameConfig (now : Word) (caller : Address) (epochsPerFrame fastLaneSlots : Word) :
    Script π ε Unit :=
  transactAs .manageFrameConfig caller do
    let (schedule, change) ← ofExcept
      (((← get).schedule.reconfigure now epochsPerFrame fastLaneSlots).mapError .schedule)
    modify ({ · with schedule })
    emitIf change.frames (frameConfigEvent schedule)
    emitIf change.fastLane (.fastLaneConfigSet fastLaneSlots)

section

variable [ReportProcessor π ε]

/-- Whether the initial epoch may be moved is only known once it has been moved. -/
def updateInitialEpoch (now : Word) (caller : Address) (initialEpoch : Word) :
    Script π ε Unit :=
  transactAs .defaultAdmin caller do
    let (schedule, changed) ←
      ofExcept (((← get).schedule.setInitialEpoch now initialEpoch).mapError .schedule)
    modify ({ · with schedule })
    let e ← get
    if e.schedule.initialFrame.refSlot < ReportProcessor.processingSlot e.processor then
      throw .initialSlotPassed
    emitIf changed (frameConfigEvent schedule)

/-- Hands over the report that wins a frame, or notes that none does any more. -/
def conclude (now : Word) (frame : Frame) (winner : Option Variant) : Script π ε Unit := do
  let e ← get
  match winner with
  | some v =>
    consult (ReportProcessor.submit · now · v.report frame.refSlot (e.schedule.deadlineTime frame))
    modify fun e => { e with tally := e.tally.setAgreed frame.refSlot v.report }
    emit (.consensusReached frame.refSlot v.report v.support)
  | none =>
    modify fun e => { e with tally := e.tally.setAgreed frame.refSlot none }
    emit (.consensusLost frame.refSlot)

/-- Counts the votes of the current frame again. What the processor was given is withdrawn before
the outcome is known to stand. -/
def settle (now : Word) : Script π ε Unit := do
  let e ← get
  let frame ← ofExcept ((e.schedule.frameAt now).mapError .schedule)
  if frame.deadlineSlot < e.schedule.grid.slotAt now then return
  if ReportProcessor.isProcessing e.processor frame.refSlot then return
  let winner := e.tally.winner frame.refSlot e.quorum e.roster
  let agreed := e.tally.agreedFor frame.refSlot
  if winner.map (·.report) = agreed then return
  if agreed.isSome then
    consult (ReportProcessor.discard · now · frame.refSlot)
  conclude now frame winner

/-- Sets the quorum of a committee that may have been changed just before, and settles the votes. -/
def applyQuorum (now : Word) (caller : Address) (quorum : Word) : Script π ε Unit := do
  let e ← get
  ofExcept ((Quorum.check quorum e.roster.count).mapError .quorum)
  if quorum ≠ e.quorum then
    ofExcept (e.demand (quorumRole quorum) caller)
    modify ({ · with quorum })
    emit (.quorumSet quorum e.roster.count e.quorum)
  if e.schedule.isActive now then settle now

/-- Puts a changed roster in place, tells of the change and sets the quorum. -/
def reseat (now : Word) (caller : Address) (quorum : Word) (roster : Roster) (event : Event) :
    Script π ε Unit := do
  modify ({ · with roster })
  emit event
  applyQuorum now caller quorum

def addMember (now : Word) (caller member : Address) (quorum : Word) : Script π ε Unit :=
  transactAs .manageMembersAndQuorum caller do
    let roster ← ofExcept (((← get).roster.insert member).mapError .roster)
    reseat now caller quorum roster (.memberAdded member roster.count quorum)

def removeMember (now : Word) (caller member : Address) (quorum : Word) : Script π ε Unit :=
  transactAs .manageMembersAndQuorum caller do
    let (roster, _) ← ofExcept (((← get).roster.remove member).mapError .roster)
    reseat now caller quorum roster (.memberRemoved member roster.count quorum)

def setQuorum (now : Word) (caller : Address) (quorum : Word) : Script π ε Unit :=
  transact (applyQuorum now caller quorum)

def submitReport (now : Word) (sender : Address) (vote : Vote) (version : Word) :
    Script π ε Unit :=
  transact do
    let admission ← ofExcept ((← get).judge now sender vote version)
    modify fun e => { e with roster := e.roster.record sender vote }
    modify fun e => { e with tally := e.tally.record vote }
    emit (.reportReceived vote.refSlot sender vote.report)
    match admission with
    | .late => return
    | .counted => settle now

/-- Gives a processor that has just been bound the report agreed on, unless the one before it has
passed the reference slot. -/
def resubmit (now passed : Word) : Script π ε Unit := do
  let e ← get
  if e.schedule.isActive now then
    let frame ← ofExcept ((e.schedule.frameAt now).mapError .schedule)
    match e.tally.agreedFor frame.refSlot with
    | none => return
    | some report =>
      if frame.refSlot ≤ passed || ReportProcessor.isProcessing e.processor frame.refSlot then return
      if frame.deadlineSlot < e.schedule.grid.slotAt now then return
      consult (ReportProcessor.submit · now · report frame.refSlot (e.schedule.deadlineTime frame))

/-- Binds another processor, which may refuse the report that it is given. -/
def setReportProcessor (now : Word) (caller : Address) (p : π) : Script π ε π := do
  let e ← get
  ofExcept (e.demand .manageReportProcessor caller)
  let new := ReportProcessor.address p
  let old := ReportProcessor.address e.processor
  if new.isZero then throw .zeroProcessor
  if new = old then throw .sameProcessor
  modify ({ · with processor := p })
  emit (.reportProcessorSet new old)
  try
    resubmit now (ReportProcessor.processingSlot e.processor)
  catch err =>
    modify fun e' =>
      { e' with processor := e.processor, events := e'.events.take e.events.length }
    throw err
  return e.processor

end

end Script

/-- The reply to a call that is made in place. -/
def execute [ReportProcessor π ε] (e : Engine π) (now : Word) :
    Command π → Reply (Error ε) (Engine π) (Option π)
  | .grantRole caller role account =>
    perform.answerNone ((Script.grantRole caller role account).reply e)
  | .revokeRole caller role account =>
    perform.answerNone ((Script.revokeRole caller role account).reply e)
  | .updateInitialEpoch caller epoch =>
    perform.answerNone ((Script.updateInitialEpoch now caller epoch).reply e)
  | .setFrameConfig caller epochs slots =>
    perform.answerNone ((Script.setFrameConfig now caller epochs slots).reply e)
  | .setFastLane caller slots => perform.answerNone ((Script.setFastLane caller slots).reply e)
  | .addMember caller member quorum =>
    perform.answerNone ((Script.addMember now caller member quorum).reply e)
  | .removeMember caller member quorum =>
    perform.answerNone ((Script.removeMember now caller member quorum).reply e)
  | .setQuorum caller quorum => perform.answerNone ((Script.setQuorum now caller quorum).reply e)
  | .disableConsensus caller =>
    perform.answerNone ((Script.setQuorum now caller Quorum.unreachable).reply e)
  | .submitReport sender vote version =>
    perform.answerNone ((Script.submitReport now sender vote version).reply e)
  | .setReportProcessor caller p =>
    let r := (Script.setReportProcessor now caller p).reply e
    ⟨r.result.map some, r.state⟩

/-! ### What scripts leave alone -/

/-- An engine amid a call, seen from its beginning: it goes by the same name, its events have only
become more, and its processor was only asked for something. -/
structure Midway [ReportProcessor π ε] (now : Word) (e e₁ : Engine π) : Prop where
  address : e₁.address = e.address
  events : e.events <+: e₁.events
  processor : Asked now e.address e.processor e₁.processor

namespace Midway

variable [ReportProcessor π ε] {now : Word} {e e₁ e₂ : Engine π}

theorem refl (e : Engine π) : e.Midway now e := ⟨rfl, List.prefix_refl _, .nothing⟩

theorem trans (h : e.Midway now e₁) (h' : e₁.Midway now e₂) : e.Midway now e₂ where
  address := h'.address.trans h.address
  events := h.events.trans h'.events
  processor := by
    have hasked := h'.processor
    rw [h.address] at hasked
    exact h.processor.trans hasked

/-- The fields of an engine can be put back from a snapshot. Its processor stays as it is. -/
theorem restore (h : e.Midway now e₁) :
    e₁.restore e.snapshot = { e with processor := e₁.processor } := by
  have hevents : e₁.events.take e.events.length = e.events :=
    (List.prefix_iff_eq_take.mp h.events).symm
  rw [Engine.restore, snapshot, hevents, h.address]

end Midway

namespace Script

/-! ### How scripts reply -/

section Replies

variable {e : Engine π}

@[simp] theorem reply_throw (err : Error ε) :
    (throw err : Script π ε α).reply e = ⟨.error err, e⟩ := rfl

@[simp] theorem reply_get : (get : Script π ε (Engine π)).reply e = ⟨.ok e, e⟩ := rfl

@[simp] theorem reply_modify (f : Engine π → Engine π) :
    (modify f : Script π ε PUnit).reply e = ⟨.ok (), f e⟩ := rfl

theorem reply_bind (s : Script π ε α) (f : α → Script π ε β) :
    (s >>= f).reply e =
      match s.reply e with
      | ⟨.ok a, e'⟩ => (f a).reply e'
      | ⟨.error err, e'⟩ => ⟨.error err, e'⟩ := by
  simp only [reply, EStateM.run, bind, EStateM.bind]
  cases s e <;> rfl

theorem reply_tryCatch (s : Script π ε α) (handle : Error ε → Script π ε α) :
    (tryCatch s handle).reply e =
      match s.reply e with
      | ⟨.ok a, e'⟩ => ⟨.ok a, e'⟩
      | ⟨.error err, e'⟩ => (handle err).reply e' := by
  rw [reply, reply, EStateM.run, EStateM.run]
  dsimp only [tryCatch, tryCatchThe, MonadExceptOf.tryCatch, EStateM.tryCatch]
  cases s e <;> rfl

@[simp] theorem reply_ofExcept (x : Except (Error ε) α) : (ofExcept (π := π) x).reply e = ⟨x, e⟩ := by
  cases x <;> rfl

@[simp] theorem reply_emit (event : Event) :
    (emit event : Script π ε Unit).reply e = ⟨.ok (), e.emit event⟩ := rfl

@[simp] theorem reply_consult (call : π → Address → Reply ε π Unit) :
    (consult call).reply e =
      (call e.processor e.address).map .processor ({ e with processor := · }) := by
  simp [consult, reply_bind, Reply.map]

end Replies

/-! ### Scripts only add to an engine -/

/-- Whatever a script does, the engine that it leaves is one amid a call. -/
def Proceeds [ReportProcessor π ε] (now : Word) (s : Script π ε α) : Prop :=
  ∀ e : Engine π, e.Midway now (s.reply e).state

section Proceeds

variable [ReportProcessor π ε] {now : Word}

/-- A sequence of scripts proceeds if each of them does. -/
theorem proceeds_bind {s : Script π ε α} {f : α → Script π ε β} (hs : s.Proceeds now)
    (hf : ∀ a, (f a).Proceeds now) : (s >>= f).Proceeds now := by
  intro e
  have hfirst := hs e
  rw [reply_bind]
  generalize s.reply e = r at hfirst
  obtain ⟨result, e'⟩ := r
  cases result with
  -- The second script is not begun if the first one is refused.
  | error err => exact hfirst
  | ok a => exact hfirst.trans (hf a e')

theorem proceeds_pure (a : α) : (pure a : Script π ε α).Proceeds now := fun e => .refl e

theorem proceeds_throw (err : Error ε) : (throw err : Script π ε α).Proceeds now :=
  fun e => .refl e

theorem proceeds_get : (get : Script π ε (Engine π)).Proceeds now := fun e => .refl e

theorem proceeds_ofExcept (x : Except (Error ε) α) :
    (ofExcept x : Script π ε α).Proceeds now := by
  intro e
  rw [reply_ofExcept]
  exact .refl e

/-- A write to another field than the name, the events and the processor. -/
theorem proceeds_modify {f : Engine π → Engine π}
    (haddress : ∀ e, (f e).address = e.address := by exact fun _ => rfl)
    (hevents : ∀ e, (f e).events = e.events := by exact fun _ => rfl)
    (hprocessor : ∀ e, (f e).processor = e.processor := by exact fun _ => rfl) :
    (modify f : Script π ε PUnit).Proceeds now := by
  intro e
  refine ⟨haddress e, ?_, ?_⟩
  · exact ⟨[], (List.append_nil _).trans (hevents e).symm⟩
  · rw [reply_modify, hprocessor]
    exact .nothing

theorem proceeds_emit (event : Event) : (emit event : Script π ε Unit).Proceeds now :=
  fun _ => ⟨rfl, List.prefix_append _ _, .nothing⟩

theorem proceeds_emitIf (changed : Bool) (event : Event) :
    (emitIf changed event : Script π ε Unit).Proceeds now := by
  cases changed with
  | false => exact fun e => .refl e
  | true => exact proceeds_emit event

theorem proceeds_submit (report : Digest) (refSlot deadline : Word) :
    (consult (ReportProcessor.submit · now · report refSlot deadline) :
      Script π ε Unit).Proceeds now := by
  intro e
  rw [reply_consult]
  exact ⟨rfl, List.prefix_refl _, .submit .nothing report refSlot deadline⟩

theorem proceeds_discard (refSlot : Word) :
    (consult (ReportProcessor.discard · now · refSlot) : Script π ε Unit).Proceeds now := by
  intro e
  rw [reply_consult]
  exact ⟨rfl, List.prefix_refl _, .discard .nothing refSlot⟩

/-- Of a refused piece of a call that is taken back, nothing is left but what has become of the
processor. -/
theorem reply_transact (now : Word) {s : Script π ε Unit} (h : s.Proceeds now) (e : Engine π) :
    (transact s).reply e = e.restoreOnError (s.reply e) := by
  have hmidway := h e
  simp only [transact, reply_bind, reply_get, reply_tryCatch]
  generalize s.reply e = r at hmidway
  obtain ⟨result, e'⟩ := r
  cases result with
  | ok u => rfl
  | error err =>
    -- Whatever has been written until then, the snapshot puts it back.
    simp only [reply_modify, reply_throw, hmidway.restore]
    rfl

/-- The same for a holder of a role. Without the role nothing is done. -/
theorem reply_transactAs (now : Word) {s : Script π ε Unit} (h : s.Proceeds now) (role : Role)
    (caller : Address) (e : Engine π) :
    (transactAs role caller s).reply e =
      match e.demand role caller with
      | .error err => ⟨.error err, e⟩
      | .ok () => e.restoreOnError (s.reply e) := by
  rw [transactAs]
  simp only [reply_bind, reply_get, reply_ofExcept, reply_transact now h]
  cases e.demand (ε := ε) role caller <;> rfl

theorem proceeds_conclude (f : Frame) (winner : Option Variant) :
    (conclude now f winner : Script π ε Unit).Proceeds now := by
  refine proceeds_bind proceeds_get fun e => ?_
  cases winner with
  | none => exact proceeds_bind proceeds_modify fun _ => proceeds_emit _
  | some v =>
    refine proceeds_bind (proceeds_submit _ _ _) fun _ => ?_
    exact proceeds_bind proceeds_modify fun _ => proceeds_emit _

theorem proceeds_settle : (settle now : Script π ε Unit).Proceeds now := by
  refine proceeds_bind proceeds_get fun e => proceeds_bind (proceeds_ofExcept _) fun f => ?_
  split
  · exact proceeds_pure ()
  split
  · exact proceeds_pure ()
  dsimp only
  split
  · exact proceeds_pure ()
  split
  · exact proceeds_bind (proceeds_discard _) fun _ => proceeds_conclude _ _
  · exact proceeds_conclude _ _

theorem proceeds_applyQuorum (caller : Address) (quorum : Word) :
    (applyQuorum now caller quorum : Script π ε Unit).Proceeds now := by
  refine proceeds_bind proceeds_get fun e => proceeds_bind (proceeds_ofExcept _) fun _ => ?_
  have hsettle : (if e.schedule.isActive now then settle now else pure () :
      Script π ε Unit).Proceeds now := by
    split
    · exact proceeds_settle
    · exact proceeds_pure ()
  dsimp only
  split
  · refine proceeds_bind (proceeds_ofExcept _) fun _ => ?_
    exact proceeds_bind proceeds_modify fun _ => proceeds_bind (proceeds_emit _) fun _ => hsettle
  · exact hsettle

theorem proceeds_reseat (caller : Address) (quorum : Word) (roster : Roster) (event : Event) :
    (reseat now caller quorum roster event : Script π ε Unit).Proceeds now := by
  refine proceeds_bind proceeds_modify fun _ => proceeds_bind (proceeds_emit _) fun _ => ?_
  exact proceeds_applyQuorum caller quorum

end Proceeds

end Script

end ReportQuorum.Engine
