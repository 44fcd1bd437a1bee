import ReportQuorum.Engine.Operations
import ReportQuorum.Engine.Query

/-!
# What an accepted vote is

A vote is accepted only from a member, for the current reference slot, before its deadline, in the
sender's lane and for a report. A tally therefore never names the zero digest.

## Main definitions

* `Engine.MayVote`: an account is entitled to vote on the current frame
* `Engine.Admissible`: the conditions that an accepted vote meets
* `Tally.Named`: every report in a tally is one

## Main results

* `Engine.judge_of_mayVote`: what becomes of the vote of an entitled account
* `Engine.admissible_of_judge`: accepted votes meet the conditions
* `Engine.vote?_ne_of_judge`: no vote is accepted again
* `Tally.Named.record`: a vote for a report keeps the tally free of the zero digest
-/

namespace ReportQuorum

namespace Tally

variable {t : Tally}

/-- No report in the tally is the zero digest. -/
def Named (t : Tally) : Prop := ∀ d ∈ t.reports, d ≠ Octets.zero

/-- A report named after a vote was named before it or is the one voted for. -/
theorem mem_of_mem_record {v : Vote} {d : Digest} (h : d ∈ (t.record v).reports) :
    d ∈ t.reports ∨ d = v.report := by
  rw [record] at h
  by_cases hslot : t.refSlot = v.refSlot
  · rw [if_pos hslot] at h
    split at h
    · exact .inl h
    · simpa using h
  · rw [if_neg hslot] at h
    right
    simpa using h

theorem Named.record (h : t.Named) {v : Vote} (hv : v.report ≠ Octets.zero) :
    (t.record v).Named := by
  intro d hd
  obtain hd | rfl := mem_of_mem_record hd
  · exact h d hd
  · exact hv

end Tally

namespace Engine

variable {π ε : Type} [ReportProcessor π ε] {e : Engine π} {now version : Word} {sender : Address}
  {vote : Vote} {f : Frame} {report : Digest} {admission : Admission}

/-- An account is entitled to vote on the current frame: it is a member, the deadline slot has not
passed, and it is in the fast lane as long as that is asked for. -/
structure MayVote (e : Engine π) (now : Word) (sender : Address) (f : Frame) : Prop where
  member : e.roster.contains sender = true
  current : e.schedule.frameAt now = .ok f
  timely : e.schedule.grid.slotAt now ≤ f.deadlineSlot
  lane : e.schedule.inFastLane f (e.schedule.grid.slotAt now) = true → e.inLane f sender = true

/-- What becomes of the vote of an entitled account depends on what is on record of the account,
which is the blank vote before it has voted: as long as the slot is locked only its slot counts, and
otherwise the vote as a whole. -/
theorem judge_of_mayVote (h : e.MayVote now sender f) (hreport : report ≠ Octets.zero) :
    e.judge now sender ⟨f.refSlot, report⟩ (ReportProcessor.version e.processor) =
      if ReportProcessor.isProcessing e.processor f.refSlot = true then
        if ((e.roster.vote? sender).getD Vote.blank).refSlot = f.refSlot then
          .error .alreadyProcessing
        else .ok .late
      else if (e.roster.vote? sender).getD Vote.blank = ⟨f.refSlot, report⟩ then
        .error .duplicateReport
      else .ok .counted := by
  obtain ⟨i, hi⟩ := Option.isSome_iff_exists.mp h.member
  have hlane : ¬ (e.schedule.inFastLane f (e.schedule.grid.slotAt now) &&
      !e.roster.isFastLane (UInt64.ofNat i) f.index e.quorum) = true := by
    have hseated := h.lane
    simp only [inLane, hi] at hseated
    simpa using hseated
  have hzero : ¬ report.isZero = true := fun hzero => hreport (Octets.isZero_iff.mp hzero)
  simp only [judge, hi, h.current]
  rw [if_neg (Decidable.not_not.mpr rfl), if_neg (Decidable.not_not.mpr rfl),
    if_neg (UInt64.not_lt.mpr h.timely), if_neg hlane, if_neg hzero]

/-- An accepted vote comes from an entitled account, for the current frame, in the processor's
version and for a report. Its frame is not being processed if it counts. -/
theorem mayVote_of_judge (h : e.judge now sender vote version = .ok admission) :
    ∃ f, e.MayVote now sender f ∧ version = ReportProcessor.version e.processor ∧
      vote.refSlot = f.refSlot ∧ vote.report ≠ Octets.zero ∧
      (admission = .late ↔ ReportProcessor.isProcessing e.processor f.refSlot = true) := by
  rw [judge] at h
  cases hmember : e.roster.indexOf? sender with
  | none => simp [hmember] at h
  | some i =>
    cases hframe : e.schedule.frameAt now with
    | error cause => simp [hmember, hframe] at h
    | ok f =>
      simp only [hmember, hframe] at h
      -- Each refusal that did not happen is one of the conditions.
      split at h
      · cases h
      next hversion =>
      split at h
      · cases h
      next hslot =>
      split at h
      · cases h
      next htimely =>
      split at h
      · cases h
      next hlane =>
      split at h
      · cases h
      next hreport =>
      have hvote : vote.refSlot = f.refSlot := Decidable.not_not.mp hslot
      have hmay : e.MayVote now sender f :=
        ⟨by simp [Roster.contains, hmember], hframe, UInt64.not_lt.mp htimely,
          by simpa [inLane, hmember] using hlane⟩
      refine ⟨f, hmay, Decidable.not_not.mp hversion, hvote,
        fun hzero => hreport (Octets.isZero_iff.mpr hzero), ?_⟩
      rw [← hvote]
      split at h
      next hlate =>
        split at h
        · cases h
        · cases h
          simp [hlate]
      next hcounted =>
        split at h
        · cases h
        · cases h
          simp [hcounted]

/-- What is on record of the sender of an accepted vote is another vote. -/
theorem vote?_ne_of_judge (h : e.judge now sender vote version = .ok admission) :
    e.roster.vote? sender ≠ some vote := by
  obtain ⟨f, hmay, rfl, hslot, hreport, -⟩ := mayVote_of_judge h
  obtain ⟨refSlot, report⟩ := vote
  obtain rfl : refSlot = f.refSlot := hslot
  intro hsame
  rw [judge_of_mayVote hmay hreport, hsame, Option.getD_some, if_pos rfl, if_pos rfl] at h
  -- Whether the slot is locked or not, the vote is refused.
  split at h
  · cases h
  · cases h

/-- The conditions that an accepted vote meets in the current frame. -/
structure Admissible (e : Engine π) (now : Word) (sender : Address) (vote : Vote) (version : Word)
    (f : Frame) : Prop where
  member : e.roster.contains sender = true
  current : e.schedule.frameAt now = .ok f
  version : version = ReportProcessor.version e.processor
  slot : vote.refSlot = f.refSlot
  timely : e.schedule.grid.slotAt now ≤ f.deadlineSlot
  report : vote.report ≠ Octets.zero

/-- An accepted vote meets the conditions. Its frame is not being processed if it counts. -/
theorem admissible_of_judge (h : e.judge now sender vote version = .ok admission) :
    ∃ f, e.Admissible now sender vote version f ∧
      (admission = .late ↔ ReportProcessor.isProcessing e.processor f.refSlot = true) := by
  obtain ⟨f, hmay, hversion, hslot, hreport, hlate⟩ := mayVote_of_judge h
  exact ⟨f, ⟨hmay.member, hmay.current, hversion, hslot, hmay.timely, hreport⟩, hlate⟩

/-- A vote that is judged badly changes nothing. -/
theorem submitReport_of_judge_error {err : Error ε}
    (h : e.judge now sender vote version = .error err) :
    e.submitReport now sender vote version = ⟨.error err, e⟩ := by
  rw [submitReport, h]

end Engine

end ReportQuorum
