import ReportQuorum.Proofs.DroppedReports
import ReportQuorum.Proofs.Service
import ReportQuorum.Proofs.WriteByWrite

/-!
# A refused call leaves no trace

A call that is made in place, with every write when it happens and a rollback at the end, replies as
the call that first decides and then changes. So whichever way a call is refused, the engine is what
it was: its schedule, roster, quorum, tally, roles, events and name. It is still bound to the same
processor, which may have been asked for something.

## Main results

* `Engine.execute_eq_perform`: calls made in place reply as calls do
* `Engine.unchanged_of_refused`: what a refused call leaves alone
-/

namespace ReportQuorum.Engine

open ReportProcessor (Asked FixedAddress)

variable {π ε : Type}

namespace Script

/-! ### Calls that write last -/

theorem reply_setFastLane (e : Engine π) (caller : Address) (slots : Word) :
    (setFastLane caller slots).reply e = e.setFastLane (ε := ε) caller slots := by
  rw [setFastLane, Engine.setFastLane]
  simp only [reply_bind, reply_get, reply_ofExcept]
  cases e.demand (ε := ε) .manageFastLaneConfig caller with
  | error err => rfl
  | ok u =>
    dsimp only
    cases e.schedule.setFastLane slots with
    | error cause => rfl
    | ok change => rfl

theorem reply_grantRole (e : Engine π) (caller : Address) (role : Role) (account : Address) :
    (grantRole caller role account).reply e = e.grantRole (ε := ε) caller role account := by
  rw [grantRole, Engine.grantRole]
  simp only [reply_bind, reply_get, reply_ofExcept]
  cases e.roles.grant caller role account with
  | error cause => rfl
  | ok change => rfl

theorem reply_revokeRole (e : Engine π) (caller : Address) (role : Role) (account : Address) :
    (revokeRole caller role account).reply e = e.revokeRole (ε := ε) caller role account := by
  rw [revokeRole, Engine.revokeRole]
  simp only [reply_bind, reply_get, reply_ofExcept]
  cases e.roles.revoke caller role account with
  | error cause => rfl
  | ok change => rfl

variable [ReportProcessor π ε] {e : Engine π} {now : Word}

/-! ### Settling the votes in place -/

/-- What is concluded about a frame is what is left of a settlement after the withdrawal. -/
theorem reply_conclude {s : Settlement} {p : π} (hp : e.withdraw (ε := ε) now s = ⟨.ok (), p⟩) :
    (conclude now s.frame s.winner).reply { e with processor := p } =
      e.carryOut (ε := ε) now s := by
  rw [carryOut, hp, conclude]
  cases s.winner with
  | none => rfl
  | some v =>
    simp only [reply_bind, reply_get, reply_consult]
    cases ReportProcessor.submit p now e.address v.report s.frame.refSlot
        (e.schedule.deadlineTime s.frame) with
    | mk result q => cases result <;> rfl

theorem reply_settle (e : Engine π) (now : Word) :
    (settle now).reply e = e.settle (ε := ε) now := by
  rw [Engine.settle, settlement, settle]
  simp only [reply_bind, reply_get, reply_ofExcept]
  cases e.schedule.frameAt now with
  | error cause => rfl
  | ok f =>
    dsimp only [Except.mapError]
    by_cases hlate : f.deadlineSlot < e.schedule.grid.slotAt now
    · rw [if_pos hlate, if_pos hlate]
      rfl
    rw [if_neg hlate, if_neg hlate]
    by_cases hprocessing : ReportProcessor.isProcessing e.processor f.refSlot = true
    · rw [if_pos hprocessing, if_pos hprocessing]
      rfl
    rw [if_neg hprocessing, if_neg hprocessing]
    by_cases hsame : (e.tally.winner f.refSlot e.quorum e.roster).map (·.report) =
        e.tally.agreedFor f.refSlot
    · rw [if_pos hsame, if_pos hsame]
      rfl
    rw [if_neg hsame, if_neg hsame]
    dsimp only
    -- What is left is to withdraw, if there is something to withdraw, and to conclude.
    generalize e.tally.winner f.refSlot e.quorum e.roster = winner
    cases hheld : (e.tally.agreedFor f.refSlot).isSome with
    | false => exact reply_conclude (s := ⟨f, false, winner⟩) (withdraw_of_nothing rfl)
    | true =>
      rw [if_pos rfl, reply_bind, reply_consult]
      have hwithdraw : e.withdraw (ε := ε) now ⟨f, true, winner⟩ = _ := withdraw_of_held rfl
      cases hp : ReportProcessor.discard e.processor now e.address f.refSlot with
      | mk result p =>
        rw [hp] at hwithdraw
        cases result with
        | error err =>
          rw [carryOut, hwithdraw]
          rfl
        | ok u => exact reply_conclude hwithdraw

theorem reply_settleIfActive (e : Engine π) (now : Word) :
    (if e.schedule.isActive now then settle now else pure () : Script π ε Unit).reply e =
      e.settleIfActive now := by
  rw [settleIfActive]
  split
  · exact reply_settle e now
  · rfl

/-! ### Changes of the committee in place -/

theorem reply_applyQuorum (e : Engine π) (now : Word) (caller : Address) (quorum : Word) :
    (applyQuorum now caller quorum).reply e =
      match e.withQuorum (ε := ε) caller quorum with
      | .error err => ⟨.error err, e⟩
      | .ok e' => e'.settleIfActive now := by
  rw [applyQuorum]
  simp only [reply_bind, reply_get, reply_ofExcept]
  rw [withQuorum]
  cases (Quorum.check quorum e.roster.count).mapError (Error.quorum (ε := ε)) with
  | error err => rfl
  | ok u =>
    by_cases hsame : quorum = e.quorum
    · simp only [hsame, ne_eq, not_true, if_false, if_true]
      exact reply_settleIfActive e now
    · simp only [hsame, ne_eq, not_false_eq_true, if_false, if_true, reply_bind, reply_ofExcept]
      cases e.demand (ε := ε) (quorumRole quorum) caller with
      | error err => rfl
      | ok u =>
        exact reply_settleIfActive
          ({ e with quorum }.emit (.quorumSet quorum e.roster.count e.quorum)) now

/-- A change that has been made before the quorum is set is taken back with it. -/
theorem restoreOnError_applyQuorum {e₁ : Engine π} (h : e₁.processor = e.processor)
    (caller : Address) (quorum : Word) :
    e.restoreOnError ((applyQuorum now caller quorum).reply e₁) =
      e.reform (ε := ε) now (e₁.withQuorum caller quorum) := by
  rw [reply_applyQuorum]
  cases e₁.withQuorum (ε := ε) caller quorum with
  | ok e₂ => rfl
  | error err =>
    change (⟨.error err, { e with processor := e₁.processor }⟩ : Reply _ _ _) = ⟨.error err, e⟩
    rw [h]

theorem restoreOnError_reseat (caller : Address) (quorum : Word) (roster : Roster)
    (event : Event) :
    e.restoreOnError ((reseat now caller quorum roster event).reply e) =
      e.reform (ε := ε) now (({ e with roster }.emit event).withQuorum caller quorum) := by
  rw [reseat]
  simp only [reply_bind, reply_modify, reply_emit]
  exact restoreOnError_applyQuorum (by rfl) caller quorum

theorem reply_addMember (e : Engine π) (now : Word) (caller member : Address) (quorum : Word) :
    (addMember now caller member quorum).reply e =
      e.addMember (ε := ε) now caller member quorum := by
  rw [addMember, Engine.addMember, reply_transactAs now]
  · cases e.demand (ε := ε) .manageMembersAndQuorum caller with
    | error err => rfl
    | ok u =>
      simp only [reply_bind, reply_get, reply_ofExcept]
      cases e.roster.insert member with
      | error cause => rfl
      | ok roster => exact restoreOnError_reseat caller quorum roster _
  · refine proceeds_bind proceeds_get fun e => proceeds_bind (proceeds_ofExcept _) fun roster => ?_
    exact proceeds_reseat caller quorum roster _

theorem reply_removeMember (e : Engine π) (now : Word) (caller member : Address) (quorum : Word) :
    (removeMember now caller member quorum).reply e =
      e.removeMember (ε := ε) now caller member quorum := by
  rw [removeMember, Engine.removeMember, reply_transactAs now]
  · cases e.demand (ε := ε) .manageMembersAndQuorum caller with
    | error err => rfl
    | ok u =>
      simp only [reply_bind, reply_get, reply_ofExcept]
      cases e.roster.remove member with
      | error cause => rfl
      | ok change => exact restoreOnError_reseat caller quorum change.1 _
  · refine proceeds_bind proceeds_get fun e => proceeds_bind (proceeds_ofExcept _) fun change => ?_
    exact proceeds_reseat caller quorum change.1 _

theorem reply_setQuorum (e : Engine π) (now : Word) (caller : Address) (quorum : Word) :
    (setQuorum now caller quorum).reply e = e.setQuorum (ε := ε) now caller quorum := by
  rw [setQuorum, Engine.setQuorum, reply_transact now (proceeds_applyQuorum caller quorum)]
  exact restoreOnError_applyQuorum rfl caller quorum

/-! ### Votes in place -/

theorem reply_submitReport (e : Engine π) (now : Word) (sender : Address) (vote : Vote)
    (version : Word) :
    (submitReport now sender vote version).reply e =
      e.submitReport (ε := ε) now sender vote version := by
  rw [submitReport, Engine.submitReport, reply_transact now]
  · simp only [reply_bind, reply_get, reply_ofExcept]
    cases e.judge (ε := ε) now sender vote version with
    | error err => rfl
    | ok admission =>
      cases admission with
      | late => rfl
      | counted => exact congrArg e.restoreOnError (reply_settle (e.recordVote sender vote) now)
  · refine proceeds_bind proceeds_get fun e => proceeds_bind (proceeds_ofExcept _) fun admission => ?_
    refine proceeds_bind proceeds_modify fun _ => proceeds_bind proceeds_modify fun _ => ?_
    refine proceeds_bind (proceeds_emit _) fun _ => ?_
    cases admission with
    | late => exact proceeds_pure ()
    | counted => exact proceeds_settle

/-! ### Changes of the schedule in place -/

theorem reply_updateInitialEpoch (e : Engine π) (now : Word) (caller : Address) (epoch : Word) :
    (updateInitialEpoch now caller epoch).reply e =
      e.updateInitialEpoch (ε := ε) now caller epoch := by
  rw [updateInitialEpoch, Engine.updateInitialEpoch, reply_transactAs now]
  · cases e.demand (ε := ε) .defaultAdmin caller with
    | error err => rfl
    | ok u =>
      simp only [reply_bind, reply_get, reply_ofExcept]
      cases e.schedule.setInitialEpoch now epoch with
      | error cause => rfl
      | ok change =>
        obtain ⟨schedule, changed⟩ := change
        dsimp only [Except.mapError]
        simp only [reply_modify]
        change _ = Reply.ofExcept e
          (if schedule.initialFrame.refSlot < ReportProcessor.processingSlot e.processor then
            .error (Error.initialSlotPassed (ε := ε))
          else .ok ({ e with schedule }.emitIf changed (frameConfigEvent schedule)))
        split
        · rfl
        · rfl
  · refine proceeds_bind proceeds_get fun e => proceeds_bind (proceeds_ofExcept _) fun change => ?_
    refine proceeds_bind proceeds_modify fun _ => proceeds_bind proceeds_get fun e => ?_
    split
    · exact proceeds_bind (proceeds_throw _) fun _ => proceeds_emitIf _ _
    · exact proceeds_emitIf _ _

theorem reply_setFrameConfig (e : Engine π) (now : Word) (caller : Address) (epochs slots : Word) :
    (setFrameConfig now caller epochs slots).reply e =
      e.setFrameConfig (ε := ε) now caller epochs slots := by
  rw [setFrameConfig, Engine.setFrameConfig, reply_transactAs now]
  · cases e.demand (ε := ε) .manageFrameConfig caller with
    | error err => rfl
    | ok u =>
      simp only [reply_bind, reply_get, reply_ofExcept]
      cases e.schedule.reconfigure now epochs slots with
      | error cause => rfl
      | ok change => rfl
  · refine proceeds_bind proceeds_get fun e => proceeds_bind (proceeds_ofExcept _) fun change => ?_
    refine proceeds_bind proceeds_modify fun _ => proceeds_bind (proceeds_emitIf _ _) fun _ => ?_
    exact proceeds_emitIf _ _

/-! ### Replacements in place -/

/-- Giving a report to a processor that has just been bound is handing it over beforehand. -/
theorem reply_resubmit (e : Engine π) (now : Word) (p : π) (events : List Event) :
    (resubmit now (ReportProcessor.processingSlot e.processor)).reply
        { e with processor := p, events } =
      (e.handOver (ε := ε) now p).map id ({ e with processor := ·, events }) := by
  rw [resubmit, handOver, outstanding]
  simp only [reply_bind, reply_get]
  cases hframe : e.schedule.frameAt now with
  | error cause =>
    -- Where there is no frame, none has begun.
    have hdormant : ¬ e.schedule.isActive now = true := by
      intro hactive
      obtain ⟨f, hf⟩ := Schedule.exists_frameAt hactive
      rw [hf] at hframe
      cases hframe
    rw [if_neg hdormant]
    rfl
  | ok f =>
    rw [if_pos (Schedule.frameAt_eq_ok.mp hframe).1]
    simp only [reply_bind, reply_ofExcept]
    dsimp only [Except.mapError]
    cases e.tally.agreedFor f.refSlot with
    | none => rfl
    | some report =>
      dsimp only
      by_cases hstarted : (decide (f.refSlot ≤ ReportProcessor.processingSlot e.processor) ||
          ReportProcessor.isProcessing p f.refSlot) = true
      · rw [if_pos hstarted, if_pos hstarted]
        rfl
      rw [if_neg hstarted, if_neg hstarted]
      by_cases hlate : f.deadlineSlot < e.schedule.grid.slotAt now
      · rw [if_pos hlate, if_pos hlate]
        rfl
      rw [if_neg hlate, if_neg hlate, reply_consult]
      dsimp only
      cases ReportProcessor.submit p now e.address report f.refSlot
          (e.schedule.deadlineTime f) with
      | mk result q => cases result <;> rfl

/-- If the new processor refuses its report, the old one is put back and the event is dropped. -/
theorem reply_setReportProcessor (e : Engine π) (now : Word) (caller : Address) (p : π) :
    (setReportProcessor now caller p).reply e =
      e.setReportProcessor (ε := ε) now caller p := by
  rw [setReportProcessor, Engine.setReportProcessor]
  simp only [reply_bind, reply_get, reply_ofExcept]
  cases e.demand (ε := ε) .manageReportProcessor caller with
  | error err => rfl
  | ok u =>
    dsimp only
    by_cases hzero : (ReportProcessor.address p).isZero = true
    · rw [if_pos hzero, if_pos hzero]
      rfl
    rw [if_neg hzero, if_neg hzero]
    by_cases hsame : ReportProcessor.address p = ReportProcessor.address e.processor
    · rw [if_pos hsame, if_pos hsame]
      rfl
    rw [if_neg hsame, if_neg hsame]
    simp only [reply_bind, reply_modify, reply_emit, Engine.emit, reply_tryCatch, reply_resubmit]
    cases e.handOver (ε := ε) now p with
    | mk result q =>
      cases result with
      | ok u => rfl
      | error err =>
        -- The event was added last, so the old ones are what is left.
        dsimp only [Reply.map, Except.mapError]
        simp

end Script

variable [ReportProcessor π ε] {e e' : Engine π} {now : Word} {c : Command π} {err : Error ε}

/-- Calls made in place reply as calls do. -/
theorem execute_eq_perform (e : Engine π) (now : Word) (c : Command π) :
    e.execute now c = e.perform now c := by
  cases c with
  | grantRole caller role account =>
    exact congrArg perform.answerNone (Script.reply_grantRole e caller role account)
  | revokeRole caller role account =>
    exact congrArg perform.answerNone (Script.reply_revokeRole e caller role account)
  | updateInitialEpoch caller epoch =>
    exact congrArg perform.answerNone (Script.reply_updateInitialEpoch e now caller epoch)
  | setFrameConfig caller epochs slots =>
    exact congrArg perform.answerNone (Script.reply_setFrameConfig e now caller epochs slots)
  | setFastLane caller slots =>
    exact congrArg perform.answerNone (Script.reply_setFastLane e caller slots)
  | addMember caller member quorum =>
    exact congrArg perform.answerNone (Script.reply_addMember e now caller member quorum)
  | removeMember caller member quorum =>
    exact congrArg perform.answerNone (Script.reply_removeMember e now caller member quorum)
  | setQuorum caller quorum =>
    exact congrArg perform.answerNone (Script.reply_setQuorum e now caller quorum)
  | disableConsensus caller =>
    exact congrArg perform.answerNone (Script.reply_setQuorum e now caller Quorum.unreachable)
  | submitReport sender vote version =>
    exact congrArg perform.answerNone (Script.reply_submitReport e now sender vote version)
  | setReportProcessor caller p =>
    rw [execute, Script.reply_setReportProcessor]
    rfl

/-- A call that is refused is refused in place as well, and leaves the engine with the schedule, the
roster with all votes, the quorum, the tally, the roles, the events and the name it had. The processor
is the one that was bound before: it may have been asked for something, but not in a replacement, and
if its calls do not change its address, its address is the same. -/
theorem unchanged_of_refused (h : e.perform now c = ⟨.error err, e'⟩) :
    e.execute now c = ⟨.error err, e'⟩ ∧
      e'.schedule = e.schedule ∧ e'.roster = e.roster ∧ e'.quorum = e.quorum ∧
      e'.tally = e.tally ∧ e'.roles = e.roles ∧ e'.events = e.events ∧ e'.address = e.address ∧
      Asked now e.address e.processor e'.processor ∧
      (c.replaces = true → e'.processor = e.processor) ∧
      (FixedAddress π →
        ReportProcessor.address e'.processor = ReportProcessor.address e.processor) := by
  obtain ⟨hrefused, hengine⟩ := refused h
  have hasked := hrefused.asked
  refine ⟨(execute_eq_perform e now c).trans h, ?_⟩
  rw [← hengine]
  refine ⟨rfl, rfl, rfl, rfl, rfl, rfl, rfl, hasked, fun hreplaces => ?_, hasked.address_eq⟩
  -- No settlement of the votes follows a replacement.
  have hperformed := e.performed now c
  rw [h] at hperformed
  cases hperformed with
  | refused _ => rfl
  | undone hamends _ =>
    rw [hamends.replaces] at hreplaces
    cases hreplaces

namespace Recorded

/-- Two members make up a committee, one of them votes, and the recorder takes no report any more. -/
def halfVoted : List (Word × Act Recorder) :=
  [(484, .call (.grantRole admin .manageMembersAndQuorum admin)),
    (484, .call (.addMember admin (.ofLowByte 1) 1)),
    (484, .call (.addMember admin (.ofLowByte 2) 2)), (484, .call (.updateInitialEpoch admin 1)),
    (484, .call (vote 1)), (484, .tend ({ · with rejectsSubmit := true }))]

/-- The other member has to leave. -/
def leave : Command Recorder := .removeMember admin (.ofLowByte 2) 1

end Recorded

open Recorded in
/-- When the member that has not voted is removed, the report of the other one wins. The recorder
refuses it, and so the member has kept its seat. -/
theorem unchanged_on_refused_leave :
    ∃ e₀, create setup recorder = .ok e₀ ∧
      let e := e₀.after halfVoted
      let r := e.perform 484 leave
      r.result = .error (.processor .submit) ∧ e.execute 484 leave = r ∧
        r.state.roster = e.roster ∧ r.state.roster.size = 2 ∧ r.state.quorum = 2 ∧
        r.state.events = e.events ∧
        ReportProcessor.address r.state.processor = ReportProcessor.address e.processor := by
  have hrun : (create setup recorder).toOption.any (fun e₀ => decide (
      ((e₀.after halfVoted).perform 484 leave).result = .error (.processor .submit) ∧
        (e₀.after halfVoted).roster.size = 2 ∧ (e₀.after halfVoted).quorum = 2)) = true := by
    decide +kernel
  obtain ⟨e₀, hmade, hend⟩ := exists_of_any hrun
  refine ⟨e₀, hmade, ?_⟩
  generalize e₀.after halfVoted = e at hend ⊢
  obtain ⟨hresult, hsize, hquorum⟩ := hend
  have hrefused : e.perform 484 leave =
      ⟨.error (.processor .submit), (e.perform 484 leave).state⟩ := by
    rw [← hresult]
  obtain ⟨hexecute, -, hroster, hkept, -, -, hevents, -, -, -, haddress⟩ :=
    unchanged_of_refused hrefused
  refine ⟨hresult, hexecute.trans hrefused.symm, hroster, ?_, hkept.trans hquorum, hevents, ?_⟩
  · rw [hroster, hsize]
  · exact haddress Recorder.fixedAddress

end ReportQuorum.Engine
