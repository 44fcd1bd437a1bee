import ReportQuorum.Proofs.Replacement
import ReportQuorum.Proofs.Upkeep

/-!
# Setting the quorum that is set already

Nobody needs a role to set the quorum that is set already, and the votes are settled even so. That
changes nothing where what is noted is what the votes say, and on a clock that does not go back it
is so after every call, with one exception. While the current slot is locked the votes are not
settled, however the quorum moves; and if another oracle takes over for which the slot is not
locked, the note is out of date. Then a stranger who sets the quorum to what it is makes the engine
withdraw a report or hand one over.

## Main definitions

* `Engine.KeepsLock`: a new oracle has the current slot locked if the old one has

## Main results

* `Engine.perform_setQuorum_same`: where nothing is left to settle, the call changes nothing
* `Engine.Tallied.act`: whatever properly happens and keeps the lock leaves nothing to settle
* `Engine.setQuorum_same`: when the call changes nothing
-/

namespace ReportQuorum

open ReportHandler (Willing willing_reportLog)

namespace Oracle

variable {η φ : Type} [ReportHandler η φ] {o : Oracle η} {refSlot : Word}

/-- An oracle refuses to give back anything for a slot before the one of its report. -/
theorem discard_of_before (sender : Address) (h : refSlot < o.report.refSlot) :
    ∃ err, o.discard (φ := φ) sender refSlot = ⟨.error err, o⟩ := by
  rw [discard]
  cases o.checkSender (φ := φ) sender with
  | error err => exact ⟨err, rfl⟩
  | ok u =>
    dsimp only
    rw [if_pos h]
    exact ⟨_, rfl⟩

end Oracle

namespace Engine

section Generic

variable {π ε : Type} [ReportProcessor π ε] {e : Engine π} {now : Word} {caller : Address}

/-! ### Settling the votes once more -/

/-- Where what is noted is what the votes say, settling them changes nothing. -/
theorem settle_of_level (h : e.Level now) {f : Frame} (hf : e.schedule.frameAt now = .ok f) :
    e.settle now = ⟨.ok (), e⟩ := by
  rw [settle]
  by_cases hopen : e.Open now f
  · rw [settlement_of_open hopen, if_pos (h f hopen)]
  · rw [settlement_of_closed hf hopen]

theorem settleIfActive_of_level (h : e.Level now) : e.settleIfActive now = ⟨.ok (), e⟩ := by
  rw [settleIfActive]
  split
  next hactive =>
    obtain ⟨f, hf⟩ := Schedule.exists_frameAt hactive
    exact settle_of_level h hf
  next => rfl

/-- Everybody may set the quorum that is set already; all it does is to settle the votes. -/
theorem perform_setQuorum_same (hmajority : Quorum.least e.roster.count ≤ e.quorum) :
    e.perform now (.setQuorum caller e.quorum) =
      perform.answerNone (e.restoreOnError (e.settleIfActive now)) := by
  have hchange : e.withQuorum (ε := ε) caller e.quorum = .ok e :=
    withQuorum_eq_ok.mpr ⟨⟨hmajority, fun h => absurd rfl h⟩, if_pos rfl⟩
  simp only [perform, setQuorum, reform, hchange]

/-- If settling the votes changes nothing, neither does the call. A quorum that is no strict
majority is refused, also if it is set already. -/
theorem state_of_setQuorum_same (h : (e.settleIfActive now).state = e) :
    (e.perform now (.setQuorum caller e.quorum)).state = e := by
  by_cases hmajority : Quorum.least e.roster.count ≤ e.quorum
  · rw [perform_setQuorum_same hmajority]
    cases hr : e.settleIfActive now with
    | mk result e' =>
      obtain rfl : e' = e := by rw [← h, hr]
      cases result <;> rfl
  · simp only [perform, setQuorum, reform]
    cases hchange : e.withQuorum (ε := ε) caller e.quorum with
    | error err => rfl
    | ok e' => exact absurd (withQuorum_eq_ok.mp hchange).1.majority hmajority

end Generic

variable {η φ : Type} [ReportHandler η φ] {e e₀ : Engine (Oracle η)} {now now' since : Word}
  {caller : Address} {a : Act (Oracle η)} {run : List (Word × Act (Oracle η))} {f : Frame}

/-- As long as the oracle holds something for a later slot, settling the votes leaves no trace. -/
theorem settle_of_before (hopen : e.Open now f) (hbefore : f.refSlot < e.processor.report.refSlot) :
    (e.settle now).state = e := by
  obtain ⟨err, hrefused⟩ := Oracle.discard_of_before (φ := φ) e.address hbefore
  have hs := e.settled now
  generalize e.settle now = r at hs ⊢
  cases hs with
  | withdrawalRefused h _ hp =>
    obtain rfl := hopen.eq h.current
    cases hrefused.symm.trans hp
    rfl
  | lost h _ _ hp =>
    obtain rfl := hopen.eq h.current
    cases hrefused.symm.trans hp
  | handoverRefused h _ _ hp hq =>
    obtain rfl := hopen.eq h.current
    cases hp with
    | nothing _ =>
      obtain rfl := Oracle.submit_refused hq
      rfl
    | accepted _ hp => cases hrefused.symm.trans hp
  | reached h _ _ hp hq =>
    obtain rfl := hopen.eq h.current
    cases hp with
    | nothing _ =>
      have haccepts := (Oracle.submit_eq_ok.mp hq).1
      exact absurd haccepts.notBefore (UInt64.not_le.mpr hbefore)
    | accepted _ hp => cases hrefused.symm.trans hp
  | _ => rfl

/-- Settling the votes leaves no trace if what is noted for the open frame is what the votes say, or
the oracle holds something for a later slot. -/
theorem settleIfActive_of_room (h : ∀ f, e.Open now f → e.processor.report.refSlot ≤ f.refSlot →
    (e.winnerFor f.refSlot).map (·.report) = e.tally.agreedFor f.refSlot) :
    (e.settleIfActive now).state = e := by
  rw [settleIfActive]
  split
  next hactive =>
    obtain ⟨f, hf⟩ := Schedule.exists_frameAt hactive
    by_cases hlater : e.Open now f ∧ f.refSlot < e.processor.report.refSlot
    · exact settle_of_before hlater.1 hlater.2
    · have hlevel : e.Level now := fun f' hopen => by
        obtain rfl := hopen.eq hf
        exact h f hopen (UInt64.not_lt.mp fun hlt => hlater ⟨hopen, hlt⟩)
      rw [settle_of_level hlevel hf]
  next => rfl

/-- If the call changes nothing, what is noted for an open frame is what the votes say, unless the
oracle holds something for a later slot. -/
theorem level_of_setQuorum_same (hsame : (e.perform now (.setQuorum caller e.quorum)).state = e)
    (hmajority : Quorum.least e.roster.count ≤ e.quorum) (hbound : e.Bound e.processor)
    (hwilling : Willing η) (hnamed : e.tally.Named) (hopen : e.Open now f)
    (hroom : e.processor.report.refSlot ≤ f.refSlot) :
    (e.winnerFor f.refSlot).map (·.report) = e.tally.agreedFor f.refSlot := by
  have hactive := (Schedule.frameAt_eq_ok.mp hopen.current).1
  obtain ⟨e', hok⟩ := settle_accepted hopen hbound hroom hwilling hnamed
  rw [perform_setQuorum_same hmajority, settleIfActive, if_pos hactive, hok] at hsame
  -- The oracle goes along with the settlement, so the note is up to date after it.
  obtain rfl : e' = e := hsame
  have hs := e'.settled (ε := Oracle.Error φ) now
  rw [hok] at hs
  exact hs.level f hopen

/-! ### Replacing the oracle -/

/-- If an act replaces the oracle while the current slot is locked, the slot is locked for the new
one as well. -/
def KeepsLock (e : Engine (Oracle η)) (now : Word) (a : Act (Oracle η)) : Prop :=
  ∀ caller o f, a = .call (.setReportProcessor caller o) →
    e.accepts now (.setReportProcessor caller o) = true → e.schedule.frameAt now = .ok f →
    f.refSlot ≤ e.processor.processingSlot → f.refSlot ≤ o.processingSlot

theorem KeepsLock.of_not_replaces {c : Command (Oracle η)} (hc : c.replaces = false) :
    e.KeepsLock now (.call c) := by
  rintro _ _ _ ⟨⟩
  cases hc

namespace Tallied

/-- A frame that is open with the new oracle was open with the old one. -/
theorem level_replaced (h : e.Tallied now) {o : Oracle η}
    (hlock : e.KeepsLock now (.call (.setReportProcessor caller o))) :
    (e.perform now (.setReportProcessor caller o)).state.Level now := by
  have hperformed := e.performed now (.setReportProcessor caller o)
  have hserved := hperformed.served
  have haccepts : (e.perform now (.setReportProcessor caller o)).result.isOk =
      e.accepts now (.setReportProcessor caller o) := rfl
  generalize e.perform now (.setReportProcessor caller o) = r at hperformed hserved haccepts ⊢
  cases hperformed with
  | refused _ => exact h.level
  | amended hamends => cases hamends
  | settled hamends _ => cases hamends
  | undone hamends _ => cases hamends
  | @replaced _ _ o' _ _ _ _ =>
    have hmark : o'.processingSlot = o.processingSlot := hserved.processingSlot
    intro f hopen
    refine h.level f ⟨hopen.current, hopen.timely, ?_⟩
    have hunlocked : ¬ f.refSlot ≤ o'.processingSlot := of_decide_eq_false hopen.unlocked
    refine decide_eq_false fun hlocked => hunlocked ?_
    rw [hmark]
    exact hlock caller o f rfl haccepts.symm hopen.current hlocked

theorem replaced (h : e.Tallied now) {o : Oracle η} (ho : e.Suits o)
    (hlock : e.KeepsLock now (.call (.setReportProcessor caller o))) :
    (e.perform now (.setReportProcessor caller o)).state.Tallied now := by
  have hperformed := e.performed now (.setReportProcessor caller o)
  exact
    { bound := bound_act e now (.call (.setReportProcessor caller o)) h.bound
        (.call fun _ _ heq => (Command.setReportProcessor.inj heq).2 ▸ ho)
      listed := h.listed.performed hperformed
      valid := hperformed.valid h.valid
      noted := hperformed.noted h.listed h.noted
      level := h.level_replaced hlock }

/-- Whatever properly happens keeps the note up to date, unless a lock is lost. -/
theorem act (h : e.Tallied now) (ha : e.Proper now a) (hlock : e.KeepsLock now a) :
    (e.act now a).Tallied now := by
  cases ha with
  | @call c hc =>
    cases c with
    | setReportProcessor caller o => exact h.replaced (hc caller o rfl) hlock
    | _ => exact h.perform rfl
  | tend htended => exact h.of_marks htended.marks
  | drain => exact h.drained

/-- The note is up to date after an orderly run in which no lock is lost, and from then on. -/
theorem after (h : e.Tallied since) (hrun : e.Orderly since run)
    (hlock : e.Throughout KeepsLock run) (hnow : ∀ t ∈ since :: run.map (·.1), t ≤ now) :
    (e.after run).Tallied now := by
  induction run generalizing e since with
  | nil => exact h.mono (hnow since (by simp))
  | cons a run ih =>
    obtain ⟨moment, a⟩ := a
    obtain ⟨hsince, ha, hrest⟩ := orderly_cons.mp hrun
    exact ih ((h.mono hsince).act ha hlock.1) hrest hlock.2 fun t ht =>
      hnow t (List.mem_cons_of_mem _ ht)

end Tallied

/-! ### Every orderly run -/

/-- After an orderly run in which no lock is lost, setting the quorum that is set already changes
nothing, whoever does it, and is accepted once there is a quorum. Whatever became of locks, it
changes nothing exactly if what is noted for the open frame is what the votes say, or the oracle
holds something for a later slot. -/
theorem setQuorum_same {setup : Setup} {o₀ : Oracle η} (h : create setup o₀ = .ok e₀)
    (ho : e₀.Suits o₀) (hrun : e₀.Orderly since run)
    (hnow : ∀ t ∈ since :: run.map (·.1), t ≤ now) :
    let e := e₀.after run
    (e₀.Throughout KeepsLock run → ∀ caller,
      (e.perform now (.setQuorum caller e.quorum)).state = e ∧
        (e.quorum ≠ 0 → (e.perform now (.setQuorum caller e.quorum)).result = .ok none)) ∧
      (Willing η → e.quorum ≠ 0 → ∀ caller,
        ((e.perform now (.setQuorum caller e.quorum)).state = e ↔
          ∀ f, e.Open now f → e.processor.report.refSlot ≤ f.refSlot →
            (e.winnerFor f.refSlot).map (·.report) = e.tally.agreedFor f.refSlot)) := by
  intro e
  have hcreated := created_of_create h
  have hbound₀ : e₀.Bound e₀.processor := by
    rw [hcreated.processor]
    exact ho.bound
  have hbound : e.Bound e.processor := hrun.proper.keep bound_act hbound₀
  have hfaithful : e.Faithful (e₀.accepted run) := (faithful_of_create h).after run
  have hmajority : e.quorum ≠ 0 → Quorum.least e.roster.count ≤ e.quorum := fun hquorum =>
    hfaithful.quorum.resolve_left fun hnone => hquorum hnone.1
  constructor
  · intro hlock caller
    have hlevel : e.Level now := ((hcreated.tallied hbound₀ since).after hrun hlock hnow).level
    refine ⟨state_of_setQuorum_same ?_, fun hquorum => ?_⟩
    · rw [settleIfActive_of_level hlevel]
    · rw [perform_setQuorum_same (hmajority hquorum), settleIfActive_of_level hlevel]
      rfl
  · intro hwilling hquorum caller
    constructor
    · exact fun hsame f hopen hroom => level_of_setQuorum_same hsame (hmajority hquorum) hbound
        hwilling hfaithful.named hopen hroom
    · exact fun hlevel => state_of_setQuorum_same (settleIfActive_of_room hlevel)

/-! ### A lock that is lost -/

namespace Single

/-- The oracle starts, agreement is disabled while the slot is locked, and another oracle with a
mark takes over. -/
def takenOver (mark : Word) : List (Word × Act (Oracle ReportLog)) :=
  before ++ [(484, starting 484), (484, .call (.disableConsensus admin)),
    (484, .call (.setReportProcessor admin (oracle 7 mark)))]

/-- The engine just before the other oracle takes over. -/
def disabled : Engine (Oracle ReportLog) :=
  ((engine.after before).act 484 (starting 484)).act 484 (.call (.disableConsensus admin))

theorem orderly_takenOver (mark : Word) : engine.Orderly 0 (takenOver mark) := by
  have haddress : disabled.address = .ofLowByte 8 := by decide +kernel
  have hgrid : disabled.schedule.grid = grid := by decide +kernel
  refine ⟨?_, throughout_append.mpr ⟨proper_before, ?_, .of_not_replaces rfl, ?_, trivial⟩⟩
  · simp [takenOver, before]
  · exact .tend (.performed .startProcessing rfl)
  · refine .call ?_
    rintro _ _ ⟨⟩
    exact ⟨arises_oracle (by decide), haddress.symm, hgrid.symm⟩

end Single

open Single

/-- If the new oracle has marked the slot, nobody changes anything by setting the unreachable quorum
once more. If it has not, nobody does in the next frame. -/
theorem setQuorum_same_after_takeover :
    let marked := engine.after (takenOver 31)
    let unmarked := engine.after (takenOver 0)
    (∀ caller, (marked.perform 484 (.setQuorum caller marked.quorum)).state = marked ∧
      (marked.perform 484 (.setQuorum caller marked.quorum)).result = .ok none) ∧
      ∀ caller, (unmarked.perform 868 (.setQuorum caller unmarked.quorum)).state = unmarked := by
  intro marked unmarked
  have hmoments : ∀ mark, ∀ t ∈ 0 :: (takenOver mark).map (·.1), t ≤ 484 := by
    simp [takenOver, before]
  constructor
  · obtain ⟨hkept, -⟩ :=
      setQuorum_same create_engine suits_first (orderly_takenOver 31) (hmoments 31)
    have hlock : engine.Throughout KeepsLock (takenOver 31) := by
      refine throughout_append.mpr ⟨⟨.of_not_replaces rfl, .of_not_replaces rfl,
        .of_not_replaces rfl, .of_not_replaces rfl, .of_not_replaces rfl, .of_not_replaces rfl,
        trivial⟩, ?_, .of_not_replaces rfl, ?_, trivial⟩
      · rintro _ _ _ ⟨⟩
      · rintro _ _ f ⟨⟩ - hf -
        have hframe : disabled.schedule.frameAt 484 = .ok ⟨0, 31, 63⟩ :=
          Schedule.frameAt_eq_ok.mpr ⟨by decide +kernel, by decide +kernel⟩
        obtain rfl := Except.ok.inj (hframe.symm.trans hf)
        exact UInt64.le_refl _
    have hquorum : marked.quorum ≠ 0 := by decide +kernel
    exact fun caller => (hkept hlock caller).imp_right fun hresult => hresult hquorum
  · have hlater : ∀ t ∈ 0 :: (takenOver 0).map (·.1), t ≤ 868 := fun t ht =>
      UInt64.le_trans (hmoments 0 t ht) (by decide)
    obtain ⟨-, hexact⟩ := setQuorum_same create_engine suits_first (orderly_takenOver 0) hlater
    have hquorum : unmarked.quorum ≠ 0 := by decide +kernel
    have hframe : unmarked.schedule.frameAt 868 = .ok ⟨1, 63, 95⟩ :=
      Schedule.frameAt_eq_ok.mpr ⟨by decide +kernel, by decide +kernel⟩
    refine fun caller => (hexact willing_reportLog hquorum caller).mpr fun f hopen _ => ?_
    obtain rfl := hopen.eq hframe
    decide +kernel

/-- If the new oracle has not marked the slot, a stranger without any role who sets the unreachable
quorum once more makes the engine forget the report that was handed over. -/
theorem lost_after_takeover :
    let e := engine.after (takenOver 0)
    let stranger : Address := .ofLowByte 99
    create setup (oracle 6 0) = .ok engine ∧ engine.Suits (oracle 6 0) ∧
      engine.Orderly 0 (takenOver 0) ∧ (∀ t ∈ 0 :: (takenOver 0).map (·.1), t ≤ 484) ∧
      (∀ role, e.roles.holds role stranger = false) ∧ e.quorum = Quorum.unreachable ∧
      (e.perform 484 (.setQuorum stranger e.quorum)).state ≠ e ∧
      (e.perform 484 (.setQuorum stranger e.quorum)).state.events =
        e.events ++ [.consensusLost 31] := by
  intro e stranger
  have hevents : (e.perform 484 (.setQuorum stranger e.quorum)).state.events =
      e.events ++ [.consensusLost 31] := by
    decide +kernel
  refine ⟨create_engine, suits_first, orderly_takenOver 0, by simp [takenOver, before], ?_,
    by decide +kernel, fun hsame => ?_, hevents⟩
  · intro role
    cases role <;> decide +kernel
  · rw [hsame] at hevents
    simp at hevents

end Engine

end ReportQuorum
