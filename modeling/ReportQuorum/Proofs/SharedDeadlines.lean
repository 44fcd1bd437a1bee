import ReportQuorum.Node.Basic
import ReportQuorum.Proofs.FrameSpan
import ReportQuorum.Proofs.Settlement

/-!
# Engine and oracle agree on deadlines

An engine knows a deadline as a slot and compares it with the slot of the current moment. Its oracle
is told the first moment of that slot and compares the slots of two moments. On the way a slot
becomes a moment, which may be cut off at the last word, and a slot again; the answer is the same
all the same, since no moment at all comes after a slot whose first moment is cut off.

## Main results

* `Oracle.checkDeadline_timeOfSlot`: the check of a moment is a comparison of slots
* `Engine.deadlines_agree`: an engine calls a vote stale, and leaves votes uncounted or a report
  unsubmitted, exactly in the slots in which an oracle on the same grid misses the deadline
-/

namespace ReportQuorum

/-- In a slot, or before it, the slot of its first moment has not passed. -/
theorem TimeGrid.slotAt_le_slotAt_timeOfSlot_iff {g : TimeGrid} {t slot : Word} :
    g.slotAt t ≤ g.slotAt (g.timeOfSlot slot) ↔ g.slotAt t ≤ slot :=
  ⟨fun h => UInt64.le_trans h (slotAt_timeOfSlot_le g slot), slotAt_le_slotAt_timeOfSlot⟩

/-- An oracle's check of the first moment of a slot is a comparison with the slot. -/
theorem Oracle.checkDeadline_timeOfSlot {η φ : Type} (o : Oracle η) (now slot : Word) :
    (o.checkDeadline now (o.grid.timeOfSlot slot) : Except (Oracle.Error φ) Unit) =
      if o.grid.slotAt now ≤ slot then .ok ()
      else .error (.deadlineMissed (o.grid.timeOfSlot slot)) := by
  by_cases h : o.grid.slotAt now ≤ slot
  · have hnot : ¬ o.grid.slotAt (o.grid.timeOfSlot slot) < o.grid.slotAt now :=
      UInt64.not_lt.mpr (TimeGrid.slotAt_le_slotAt_timeOfSlot_iff.mpr h)
    rw [checkDeadline, if_neg hnot, if_pos h]
  · have hmissed : o.grid.slotAt (o.grid.timeOfSlot slot) < o.grid.slotAt now :=
      UInt64.not_le.mp (mt TimeGrid.slotAt_le_slotAt_timeOfSlot_iff.mp h)
    rw [checkDeadline, if_pos hmissed, if_neg h]

namespace Engine

variable {π ε : Type} [ReportProcessor π ε] {e : Engine π} {now : Word} {f : Frame}

/-! ### Where an engine compares slots -/

/-- A vote is stale if nothing but the slot of the moment speaks against it so far. -/
theorem judge_eq_stale_iff (hf : e.schedule.frameAt now = .ok f) {sender : Address} {vote : Vote}
    {version : Word} :
    e.judge now sender vote version = .error (.staleReport f.deadlineSlot) ↔
      e.roster.contains sender = true ∧ version = ReportProcessor.version e.processor ∧
        vote.refSlot = f.refSlot ∧ f.deadlineSlot < e.schedule.grid.slotAt now := by
  rw [judge, Roster.contains, hf]
  cases e.roster.indexOf? sender with
  | none => simp
  | some i =>
    dsimp only
    by_cases hversion : version = ReportProcessor.version e.processor
    · rw [if_neg fun hne => hne hversion]
      by_cases hslot : vote.refSlot = f.refSlot
      · rw [if_neg fun hne => hne hslot]
        by_cases hlate : f.deadlineSlot < e.schedule.grid.slotAt now
        · simp [hversion, hslot, hlate]
        · -- No later check of a vote is for the deadline.
          rw [if_neg hlate]
          simp only [hlate, and_false, iff_false]
          repeat' split
          all_goals simp
      · simp [hslot]
    · simp [hversion]

/-- A new outcome goes untold exactly if the deadline slot has passed. -/
theorem settlement_eq_none_iff (hf : e.schedule.frameAt now = .ok f)
    (hidle : ReportProcessor.isProcessing e.processor f.refSlot = false)
    (hnew : (e.winnerFor f.refSlot).map (·.report) ≠ e.tally.agreedFor f.refSlot) :
    e.settlement now = .ok none ↔ f.deadlineSlot < e.schedule.grid.slotAt now := by
  constructor
  · intro hnone
    refine UInt64.not_le.mp fun htimely => ?_
    rw [settlement_of_open ⟨hf, htimely, hidle⟩, if_neg hnew] at hnone
    cases hnone
  · intro hlate
    exact settlement_of_closed hf fun hopen => UInt64.not_lt.mpr hopen.timely hlate

/-- A new processor is not given the agreed report exactly if the deadline slot has passed. -/
theorem outstanding_eq_none_iff (hf : e.schedule.frameAt now = .ok f) {report : Digest}
    (hagreed : e.tally.agreedFor f.refSlot = some report)
    (hidle : ReportProcessor.processingSlot e.processor < f.refSlot) {p : π}
    (hfree : ReportProcessor.isProcessing p f.refSlot = false) :
    e.outstanding now p = none ↔ f.deadlineSlot < e.schedule.grid.slotAt now := by
  rw [outstanding, hf]
  dsimp only
  rw [hagreed]
  simp [UInt64.not_le.mpr hidle, hfree]

/-- An engine and an oracle on the same grid decide alike on every deadline at every moment: the
oracle accepts the first moment of a slot, which may be cut off, exactly until the slot has passed.
So the oracle misses the deadline of the current frame exactly when the engine calls a vote on it
stale, keeps a new outcome of the votes to itself, and keeps the agreed report from a processor that
replaces its own, each in the absence of any other reason. -/
theorem deadlines_agree {η φ : Type} (e : Engine π) (o : Oracle η)
    (hgrid : o.grid = e.schedule.grid) (now : Word) :
    (∀ slot, (o.checkDeadline now (e.schedule.grid.timeOfSlot slot) :
        Except (Oracle.Error φ) Unit) = .ok () ↔ e.schedule.grid.slotAt now ≤ slot) ∧
      ∀ f, e.schedule.frameAt now = .ok f →
        let missed := (o.checkDeadline now (e.schedule.deadlineTime f) :
          Except (Oracle.Error φ) Unit) = .error (.deadlineMissed (e.schedule.deadlineTime f))
        (∀ sender vote version, e.judge now sender vote version =
            .error (.staleReport f.deadlineSlot) ↔
          e.roster.contains sender = true ∧ version = ReportProcessor.version e.processor ∧
            vote.refSlot = f.refSlot ∧ missed) ∧
        (ReportProcessor.isProcessing e.processor f.refSlot = false →
          (e.winnerFor f.refSlot).map (·.report) ≠ e.tally.agreedFor f.refSlot →
            (e.settlement now = .ok none ↔ missed)) ∧
        ∀ report p, e.tally.agreedFor f.refSlot = some report →
          ReportProcessor.processingSlot e.processor < f.refSlot →
          ReportProcessor.isProcessing p f.refSlot = false →
            (e.outstanding now p = none ↔ missed) := by
  have hcheck := o.checkDeadline_timeOfSlot (φ := φ) now
  rw [hgrid] at hcheck
  refine ⟨fun slot => ?_, fun f hf => ?_⟩
  · rw [hcheck]
    simp
  · have hmissed : (o.checkDeadline now (e.schedule.deadlineTime f) :
          Except (Oracle.Error φ) Unit) = .error (.deadlineMissed (e.schedule.deadlineTime f)) ↔
        f.deadlineSlot < e.schedule.grid.slotAt now := by
      rw [Schedule.deadlineTime, hcheck, ← UInt64.not_le]
      simp
    refine ⟨fun sender vote version => ?_, fun hidle hnew => ?_,
      fun report p hagreed hidle hfree => ?_⟩
    · rw [hmissed]
      exact judge_eq_stale_iff hf
    · rw [hmissed]
      exact settlement_eq_none_iff hf hidle hnew
    · rw [hmissed]
      exact outstanding_eq_none_iff hf hagreed hidle hfree

/-- Where slots are seconds and time begins at zero, a node comes to the last slot of all, which is
past the deadline of its own frame: a vote is stale there, and so the oracle misses the deadline. -/
theorem missed_in_last_slot :
    let c := { Node.Config.sample (fun i => .ofLowByte (.ofNat (i + 1))) 1 with
      grid := ⟨1, 1, 0⟩, epochsPerFrame := 1 }
    let slot : Word := 0xfffffffffffffffe
    ∃ n, Node.create c 0 = .ok n ∧ n.oracle.grid = n.engine.schedule.grid ∧
      n.engine.schedule.frameAt Word.last = .ok ⟨slot, slot, slot⟩ ∧
      n.engine.judge Word.last (.ofLowByte 1) ⟨slot, Octets.replicate 32 7⟩ 1 =
        .error (.staleReport slot) ∧
      (n.oracle.checkDeadline Word.last slot : Except (Oracle.Error Empty) Unit) =
        .error (.deadlineMissed slot) := by
  intro c slot
  have hmade : (Node.create c 0).toOption.any (fun n => decide (
      n.oracle.grid = n.engine.schedule.grid ∧
        n.engine.schedule.deadlineTime ⟨slot, slot, slot⟩ = slot ∧
        (n.engine.schedule.frameAt Word.last).toOption = some ⟨slot, slot, slot⟩ ∧
        n.engine.judge Word.last (.ofLowByte 1) ⟨slot, Octets.replicate 32 7⟩ 1 =
          .error (.staleReport slot))) = true := by
    decide +kernel
  obtain ⟨n, hn, hgrid, htime, hf, hstale⟩ := exists_of_any hmade
  rw [toOption_eq_some] at hf
  obtain ⟨-, hagree⟩ := deadlines_agree (φ := Empty) n.engine n.oracle hgrid Word.last
  obtain ⟨-, -, -, hmissed⟩ := ((hagree _ hf).1 _ _ _).mp hstale
  rw [htime] at hmissed
  exact ⟨n, hn, hgrid, hf, hstale, hmissed⟩

end Engine

end ReportQuorum
