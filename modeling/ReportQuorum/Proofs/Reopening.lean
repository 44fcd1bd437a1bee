import ReportQuorum.Proofs.Majority
import ReportQuorum.Proofs.DoneSlots

/-!
# A slot that is opened again

While the current frame is open, moving the quorum away and back makes the engine hand over again
what reaches it, and the engine asks nobody but the present oracle whether the slot is done with.

## Main definitions

* `ReportHandler.Willing`: a handler that refuses nothing
* `Engine.CanReopen`: somebody may move the quorum away and back in an open frame

## Main results

* `Engine.submitted_of_canReopen`: then the oracle is handed a report for the current slot
* `Oracle.started_of_held`: an oracle starts what it holds and has not marked
-/

namespace ReportQuorum

/-- Handlers of a kind refuse nothing. -/
structure ReportHandler.Willing (η : Type) {φ : Type} [ReportHandler η φ] : Prop where
  handle : ∀ (h : η) report previous, (ReportHandler.handle h report previous).result = .ok ()
  discarded : ∀ (h : η) report, (ReportHandler.discarded h report).result = .ok ()

theorem ReportHandler.willing_reportLog : Willing ReportLog :=
  ⟨fun _ _ _ => rfl, fun _ _ => rfl⟩

open ReportHandler (Willing)

namespace Oracle

variable {η φ : Type} [ReportHandler η φ] {o : Oracle η} {now refSlot : Word} {sender : Address}

/-- An oracle does not refuse to give back what is held for a slot that it has not passed. -/
theorem discard_ne_error (hwilling : Willing η) (hsender : sender = o.engine)
    (hslot : o.report.refSlot ≤ refSlot) (hmark : o.processingSlot < refSlot) {err : Error φ}
    {o' : Oracle η} : o.discard sender refSlot ≠ ⟨.error err, o'⟩ := by
  intro h
  have hd := o.discarded (φ := φ) sender refSlot
  rw [h] at hd
  cases hd with
  | refused _ hwhy =>
    obtain hforeign | hbefore | ⟨-, hpassed⟩ := hwhy
    · exact hforeign hsender
    · exact UInt64.not_lt.mpr hslot hbefore
    · exact UInt64.not_le.mpr hmark hpassed
  | handlerRefused hh =>
    have hok := hwilling.discarded o.handler o.report
    rw [hh] at hok
    cases hok

/-- An oracle starts what it holds and has not marked, as long as there is time. -/
theorem started_of_held (hwilling : Willing η) {d : Digest} (hheld : o.held = some ⟨refSlot, d⟩)
    (hmark : o.processingSlot < refSlot)
    (htimely : o.grid.slotAt now ≤ o.grid.slotAt o.report.deadline) :
    (o.startProcessing (φ := φ) now).result = .ok o.processingSlot := by
  obtain ⟨hslot, hreport, hnonzero⟩ := held_eq_some.mp hheld
  have hzero : ¬ o.report.report.isZero = true := by
    rw [Octets.isZero_iff, hreport]
    exact hnonzero
  have hnew : ¬ o.report.refSlot = o.processingSlot := by
    rw [hslot]
    exact fun h => UInt64.lt_irrefl _ (h ▸ hmark)
  have hdeadline : o.checkDeadline (φ := φ) now o.report.deadline = .ok () :=
    checkDeadline_eq_ok.mpr htimely
  have hhandler := hwilling.handle o.handler o.report o.processingSlot
  rw [startProcessing, if_neg hzero, if_neg hnew, hdeadline]
  dsimp only
  cases hh : ReportHandler.handle o.handler o.report o.processingSlot with
  | mk result handler =>
    rw [hh] at hhandler
    dsimp only at hhandler
    rw [hhandler]

end Oracle

namespace Engine

variable {η φ : Type} [ReportHandler η φ] {e e₁ : Engine (Oracle η)} {now : Word} {f : Frame}
  {caller : Address} {v : Variant}

theorem Open.eq (h : e.Open now f) {f' : Frame} (hf' : e.schedule.frameAt now = .ok f') :
    f' = f :=
  (Except.ok.inj (h.current.symm.trans hf')).symm

/-- In an open frame an oracle that holds nothing for a later slot goes along with whatever its
engine makes of the votes. -/
theorem settle_accepted (hopen : e.Open now f) (hbound : e.Bound e.processor)
    (hroom : e.processor.report.refSlot ≤ f.refSlot) (hwilling : Willing η)
    (hnamed : e.tally.Named) : ∃ e', e.settle (ε := Oracle.Error φ) now = ⟨.ok (), e'⟩ := by
  have hs := e.settled (ε := Oracle.Error φ) now
  cases hr : e.settle (ε := Oracle.Error φ) now with
  | mk result e' =>
    rw [hr] at hs
    cases hs with
    | notStarted h =>
      rw [hopen.current] at h
      cases h
    | withdrawalRefused h _ hp =>
      -- The oracle has not passed the slot of an open frame.
      obtain rfl := hopen.eq h.current
      have hmark : ¬ _ ≤ e.processor.processingSlot := of_decide_eq_false hopen.unlocked
      exact absurd hp (Oracle.discard_ne_error hwilling hbound.engine.symm hroom
        (UInt64.not_le.mp hmark))
    | @handoverRefused _ v _ p _ h winner _ hp hq =>
      obtain rfl := hopen.eq h.current
      have hserved : Oracle.Served (fun _ => False) e.processor p := hp.served
      have haccepts := hopen.accepts (hserved.engine.trans hbound.engine)
        (hserved.grid.trans hbound.grid) hserved.processingSlot (hserved.refSlot_eq ▸ hroom)
        (hnamed _ (Tally.exists_of_winner winner).1)
      have hok := Oracle.submit_eq_ok (φ := φ) |>.mpr ⟨haccepts, rfl⟩
      exact absurd (hq.symm.trans hok) (by simp)
    | _ => exact ⟨_, rfl⟩

/-- If no report reaches the quorum any more, a willing oracle gives back what it was handed. -/
theorem settle_of_no_winner (hopen : e.Open now f) (hnone : e.winnerFor f.refSlot = none)
    (hbound : e.Bound e.processor) (hroom : e.processor.report.refSlot ≤ f.refSlot)
    (hwilling : Willing η) (hnamed : e.tally.Named) :
    ∃ e', e.settle now = ⟨.ok (), e'⟩ ∧ e.SameVotes e' ∧ e'.tally.agreedFor f.refSlot = none ∧
      Oracle.Served (fun _ => False) e.processor e'.processor := by
  obtain ⟨e', hok⟩ := settle_accepted hopen hbound hroom hwilling hnamed
  have hs := e.settled (ε := Oracle.Error φ) now
  rw [hok] at hs
  have hvotes := hs.sameVotes
  cases hs with
  | closed h hf =>
    obtain rfl := hopen.eq h
    exact absurd hopen hf
  | unchanged h same =>
    obtain rfl := hopen.eq h.current
    rw [hnone] at same
    exact ⟨e, hok, hvotes, same.symm, .refl⟩
  | lost h _ _ hp =>
    obtain rfl := hopen.eq h.current
    exact ⟨_, hok, hvotes, rfl, Oracle.served_discard hp⟩
  | reached h winner _ _ _ =>
    obtain rfl := hopen.eq h.current
    rw [hnone] at winner
    cases winner

/-- If a report reaches the quorum and nothing was handed over, the oracle is handed the report. -/
theorem settle_of_winner (hopen : e.Open now f) (hwinner : e.winnerFor f.refSlot = some v)
    (hagreed : e.tally.agreedFor f.refSlot = none) (hbound : e.Bound e.processor)
    (hroom : e.processor.report.refSlot ≤ f.refSlot) (hwilling : Willing η)
    (hnamed : e.tally.Named) :
    ∃ e', e.settle (ε := Oracle.Error φ) now = ⟨.ok (), e'⟩ ∧
      e'.processor = e.processor.taking v.report f.refSlot (e.schedule.deadlineTime f) := by
  obtain ⟨e', hok⟩ := settle_accepted hopen hbound hroom hwilling hnamed
  have hs := e.settled (ε := Oracle.Error φ) now
  rw [hok] at hs
  cases hs with
  | closed h hf =>
    obtain rfl := hopen.eq h
    exact absurd hopen hf
  | unchanged h same =>
    obtain rfl := hopen.eq h.current
    rw [hwinner, hagreed] at same
    cases same
  | lost h noWinner _ _ =>
    obtain rfl := hopen.eq h.current
    rw [hwinner] at noWinner
    cases noWinner
  | @reached f' v' _ _ h winner _ hp hq =>
    obtain rfl := hopen.eq h.current
    obtain rfl := Option.some.inj (hwinner.symm.trans winner)
    cases hp with
    | nothing _ =>
      obtain ⟨-, hq⟩ := Oracle.submit_eq_ok.mp hq
      exact ⟨_, hok, hq.symm⟩
    | accepted held _ =>
      rw [hagreed] at held
      cases held

/-- Moving the quorum is accepted if settling the votes after it is. -/
theorem perform_setQuorum {quorum : Word} (hq : e.MaySetQuorum caller quorum)
    (hactive : e.schedule.isActive now = true)
    (hsettle : (e.requorum quorum).settle (ε := Oracle.Error φ) now = ⟨.ok (), e₁⟩) :
    e.perform now (.setQuorum caller quorum) = ⟨.ok none, e₁⟩ := by
  have hchange : e.withQuorum (ε := Oracle.Error φ) caller quorum = .ok (e.requorum quorum) :=
    withQuorum_eq_ok.mpr ⟨hq, rfl⟩
  have hsettles : (e.requorum quorum).settleIfActive (ε := Oracle.Error φ) now = ⟨.ok (), e₁⟩ := by
    rw [settleIfActive, requorum_schedule, if_pos hactive]
    exact hsettle
  simp only [perform, setQuorum, reform, hchange, hsettles]
  rfl

/-- Nothing has as many votes as the quorum that disables agreement demands. -/
theorem votesFor_lt_unreachable {r : Roster} (hsize : r.size < UInt64.size - 1) (vote : Vote) :
    r.votesFor vote < Quorum.unreachable.toNat := by
  rw [Quorum.unreachable, Word.toNat_last]
  exact Nat.lt_of_le_of_lt (r.votesFor_le_size vote) hsize

theorem support_lt_unreachable {r : Roster} (hsize : r.size < UInt64.size - 1) (vote : Vote) :
    r.support vote < Quorum.unreachable := by
  rw [UInt64.lt_iff_toNat_lt]
  exact Nat.lt_of_le_of_lt (r.toNat_support_le vote) (votesFor_lt_unreachable hsize vote)

theorem winnerFor_eq_none {π : Type} {e : Engine π} (hquorum : e.quorum = Quorum.unreachable)
    (hsize : e.roster.size < UInt64.size - 1) (refSlot : Word) : e.winnerFor refSlot = none := by
  cases h : e.winnerFor refSlot with
  | none => rfl
  | some v =>
    obtain ⟨-, hsupport, -, hle⟩ := Tally.exists_of_winner h
    rw [hquorum, hsupport] at hle
    exact absurd (support_lt_unreachable hsize _) (UInt64.not_lt.mpr hle)

/-- In the current frame a report reaches the quorum, the frame is open to the oracle, and the
caller may disable the quorum and set it. -/
structure CanReopen (e : Engine (Oracle η)) (now : Word) (caller : Address) (f : Frame) : Prop where
  isOpen : e.Open now f
  room : e.processor.report.refSlot ≤ f.refSlot
  winner : (e.winnerFor f.refSlot).isSome = true
  maySet : e.roles.holds .manageMembersAndQuorum caller = true
  mayDisable : e.roles.holds .disableConsensus caller = true

/-- A quorum that a report reaches is a strict majority and not the one that disables agreement. -/
theorem quorum_of_winner {cs : List (Command (Oracle η))} (h : e.Faithful cs)
    (hsize : e.roster.size < UInt64.size - 1) {refSlot : Word}
    (hwinner : e.winnerFor refSlot = some v) :
    Quorum.least e.roster.count ≤ e.quorum ∧ e.quorum ≠ Quorum.unreachable := by
  obtain ⟨-, hsupport, hpos, hle⟩ := Tally.exists_of_winner hwinner
  have hlt := support_lt_unreachable hsize ⟨refSlot, v.report⟩
  rw [← hsupport] at hlt
  refine ⟨?_, fun h => UInt64.not_lt.mpr hle (h ▸ hlt)⟩
  obtain ⟨-, hempty⟩ | hmajority := h.quorum
  · -- Without members nothing has support.
    have hseats : e.roster.seats = [] := List.map_eq_nil_iff.mp hempty
    rw [hsupport, Roster.support, hseats, List.countP_nil] at hpos
    exact absurd hpos (by decide)
  · exact hmajority

theorem Open.congr (h : e.Open now f) (hschedule : e₁.schedule = e.schedule)
    (hmark : e₁.processor.processingSlot = e.processor.processingSlot) : e₁.Open now f where
  current := by rw [hschedule, h.current]
  timely := by
    rw [hschedule]
    exact h.timely
  unlocked := by
    have hunlocked : decide (f.refSlot ≤ e.processor.processingSlot) = false := h.unlocked
    rw [← hmark] at hunlocked
    exact hunlocked

omit [ReportHandler η φ] in
/-- The quorum that disables agreement is always a strict majority. -/
theorem maySetQuorum_unreachable (hrole : e.roles.holds .disableConsensus caller = true) :
    e.MaySetQuorum caller Quorum.unreachable := by
  refine ⟨?_, fun _ => ?_⟩
  · have := (Quorum.least e.roster.count).toNat_lt_size
    rw [UInt64.le_iff_toNat_le, Quorum.unreachable, Word.toNat_last]
    omega
  · rw [quorumRole, if_pos rfl]
    exact hrole

/-- Disabling agreement leaves the oracle without a report that the engine knows of. -/
theorem perform_disable (hbound : e.Bound e.processor) (hsize : e.roster.size < UInt64.size - 1)
    (hwilling : Willing η) (hnamed : e.tally.Named) (h : e.CanReopen now caller f) :
    ∃ e₁, e.perform now (.setQuorum caller Quorum.unreachable) = ⟨.ok none, e₁⟩ ∧
      (e.requorum Quorum.unreachable).SameVotes e₁ ∧ e₁.tally.agreedFor f.refSlot = none ∧
      Oracle.Served (fun _ => False) e.processor e₁.processor := by
  have hopen : (e.requorum Quorum.unreachable).Open now f := h.isOpen.congr (by simp) (by simp)
  have hnone : (e.requorum Quorum.unreachable).winnerFor f.refSlot = none :=
    winnerFor_eq_none (by simp) (by simpa using hsize) _
  have hbound₁ : (e.requorum Quorum.unreachable).Bound
      (e.requorum Quorum.unreachable).processor := by
    rw [requorum_processor]
    exact hbound.congr (by simp) (by simp)
  obtain ⟨e₁, hsettle, hvotes, hagreed, hserved⟩ :=
    settle_of_no_winner hopen hnone hbound₁ (by simpa using h.room) hwilling
      (by simpa using hnamed)
  rw [requorum_processor] at hserved
  exact ⟨e₁, perform_setQuorum (maySetQuorum_unreachable h.mayDisable)
    (Schedule.frameAt_eq_ok.mp h.isOpen.current).1 hsettle, hvotes, hagreed, hserved⟩

/-- Moving the quorum away and back makes the engine hand over a report for the current slot,
whatever an earlier oracle has done with one. -/
theorem submitted_of_canReopen {cs : List (Command (Oracle η))} (hfaithful : e.Faithful cs)
    (hbound : e.Bound e.processor) (hsize : e.roster.size < UInt64.size - 1) (hwilling : Willing η)
    (h : e.CanReopen now caller f) :
    ∃ report deadline, .reportSubmitted f.refSlot report deadline ∈
      (e.perform now (.setQuorum caller Quorum.unreachable)).state.told now
        (.setQuorum caller e.quorum) := by
  obtain ⟨v, hwinner⟩ := Option.isSome_iff_exists.mp h.winner
  obtain ⟨hmajority, hreachable⟩ := quorum_of_winner hfaithful hsize hwinner
  -- While agreement is disabled nothing counts as handed over.
  obtain ⟨e₁, hperform, hvotes, hagreed, hserved⟩ :=
    perform_disable hbound hsize hwilling hfaithful.named h
  rw [hperform]
  have hroster : e₁.roster = e.roster := by simpa using hvotes.roster
  have hschedule : e₁.schedule = e.schedule := by simpa using hvotes.schedule
  have hmay : e₁.MaySetQuorum caller e.quorum := by
    refine ⟨by rw [hroster]; exact hmajority, fun _ => ?_⟩
    rw [quorumRole, if_neg hreachable, hvotes.roles, requorum_roles]
    exact h.maySet
  -- The same report wins again, and the oracle has nothing to set against it.
  have hopen : (e₁.requorum e.quorum).Open now f :=
    h.isOpen.congr (by simpa using hschedule) (by simpa using hserved.processingSlot)
  have hwinner₁ : (e₁.requorum e.quorum).winnerFor f.refSlot = some v := by
    rw [← hwinner]
    exact winnerFor_congr (by simpa using hvotes.refSlot) (by simpa using hvotes.reports)
      (by simpa using hroster) (by simp) _
  have hbound₁ : (e₁.requorum e.quorum).Bound (e₁.requorum e.quorum).processor := by
    rw [requorum_processor]
    refine hbound.of_served hserved ?_ ?_
    · simpa using hvotes.address
    · rw [requorum_schedule, hschedule]
  have hroom : (e₁.requorum e.quorum).processor.report.refSlot ≤ f.refSlot := by
    rw [requorum_processor]
    obtain ⟨hsame, -⟩ | ⟨hfalse, -⟩ := hserved.report
    · rw [hsame]
      exact h.room
    · exact hfalse.elim
  have hnamed : (e₁.requorum e.quorum).tally.Named := by
    rw [requorum_tally, Tally.Named, hvotes.reports, requorum_tally]
    exact hfaithful.named
  obtain ⟨e₂, hsettle, hprocessor⟩ :=
    settle_of_winner hopen hwinner₁ (by simpa using hagreed) hbound₁ hroom hwilling hnamed
  have hactive : e₁.schedule.isActive now = true := by
    rw [hschedule]
    exact (Schedule.frameAt_eq_ok.mp h.isOpen.current).1
  refine ⟨v.report, (e₁.requorum e.quorum).schedule.deadlineTime f, ?_⟩
  rw [told, incumbent_eq rfl, perform_setQuorum hmay hactive hsettle, hprocessor,
    requorum_processor]
  exact Oracle.mem_taking

end Engine

end ReportQuorum
