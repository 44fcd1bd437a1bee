import ReportQuorum.Proofs.Calls

/-!
# What a refused call leaves behind

A call that is refused leaves the engine as it was. Its processor was possibly asked for something
before: to give back what it was handed, to take another report, or both in turn. Where it has given
back a report and then refuses the other one, it no longer holds what the engine goes on to believe
it holds.

## Main definitions

* `ReportProcessor.Asked`: what becomes of a processor that an engine asks for something
* `Engine.Refused`: the ways in which a call is refused, with what is left of the processor
* `Engine.Overturns`: a call that puts another report in the place of the one handed over
* `Engine.Drops`: the processor gives back the one and refuses the other

## Main results

* `Engine.refused`: a call is refused in one of the ways listed
* `Engine.Refused.asked`, `Engine.Settled.asked`: a processor that is not replaced is at most asked
  for something
* `Engine.perform_of_drops`: a call is refused if the processor drops the report
-/

namespace ReportQuorum

/-- What becomes of a processor that an engine asks for something at a moment. -/
inductive ReportProcessor.Asked {π ε : Type} [ReportProcessor π ε] (now : Word) (sender : Address)
    (p : π) : π → Prop
  | nothing : Asked now sender p p
  | submit {q : π} (h : Asked now sender p q) (report : Digest) (refSlot deadline : Word) :
      Asked now sender p (ReportProcessor.submit q now sender report refSlot deadline).state
  | discard {q : π} (h : Asked now sender p q) (refSlot : Word) :
      Asked now sender p (ReportProcessor.discard q now sender refSlot).state

namespace ReportProcessor

variable {π ε : Type} [ReportProcessor π ε] {now : Word} {sender : Address} {p q r : π}

theorem Asked.trans (h : Asked now sender p q) (h' : Asked now sender q r) :
    Asked now sender p r := by
  induction h' with
  | nothing => exact h
  | submit _ report refSlot deadline ih => exact ih.submit report refSlot deadline
  | discard _ refSlot ih => exact ih.discard refSlot

theorem Asked.of_submit {report : Digest} {refSlot deadline : Word} {result : Except ε Unit}
    (h : Asked now sender p q)
    (hr : ReportProcessor.submit q now sender report refSlot deadline = ⟨result, r⟩) :
    Asked now sender p r := by
  have hasked := h.submit report refSlot deadline
  rwa [hr] at hasked

theorem Asked.of_discard {refSlot : Word} {result : Except ε Unit} (h : Asked now sender p q)
    (hr : ReportProcessor.discard q now sender refSlot = ⟨result, r⟩) : Asked now sender p r := by
  have hasked := h.discard refSlot
  rwa [hr] at hasked

/-- Processors of a kind keep their address, whatever they are asked for. -/
structure FixedAddress (π : Type) {ε : Type} [ReportProcessor π ε] : Prop where
  submit : ∀ (p : π) (now : Word) (sender : Address) (report : Digest) (refSlot deadline : Word),
    address (submit p now sender report refSlot deadline).state = address p
  discard : ∀ (p : π) (now : Word) (sender : Address) (refSlot : Word),
    address (discard p now sender refSlot).state = address p

theorem Asked.address_eq (h : Asked now sender p q) (hfixed : FixedAddress π) :
    address q = address p := by
  induction h with
  | nothing => rfl
  | submit _ report refSlot deadline ih =>
    exact (hfixed.submit _ now sender report refSlot deadline).trans ih
  | discard _ refSlot ih => exact (hfixed.discard _ now sender refSlot).trans ih

end ReportProcessor

namespace Engine

open ReportProcessor (Asked)

variable {π ε : Type} [ReportProcessor π ε] {e e₁ e' : Engine π} {now : Word} {c : Command π}
  {f : Frame} {d : Digest} {v : Variant} {p q : π} {err : Error ε}

/-! ### Dropped reports -/

/-- A call makes another report win an open frame than the one that was handed over. -/
structure Overturns (e : Engine π) (now : Word) (c : Command π) (e₁ : Engine π) (f : Frame)
    (d : Digest) (v : Variant) : Prop where
  amends : e.Amends now c e₁ true
  isOpen : e₁.Open now f
  handed : e.tally.agreedFor f.refSlot = some d
  winner : e₁.winnerFor f.refSlot = some v
  new : v.report ≠ d

/-- A call overturns the report that was handed over; the processor gives it back and is then `p`,
which refuses the other report and is then `q`. -/
structure Drops (e : Engine π) (now : Word) (c : Command π) (f : Frame) (d : Digest) (p q : π)
    (cause : ε) : Prop where
  discarded : ReportProcessor.discard e.processor now e.address f.refSlot = ⟨.ok (), p⟩
  refused : ∃ e₁ v, e.Overturns now c e₁ f d v ∧
    ReportProcessor.submit p now e.address v.report f.refSlot (e₁.schedule.deadlineTime f) =
      ⟨.error cause, q⟩

/-! ### The ways of being refused -/

/-- The ways in which a call is refused, with what is left of the processor. -/
inductive Refused (e : Engine π) (now : Word) (c : Command π) : Error ε → π → Prop
  /-- The processor was not asked for anything. -/
  | unasked (err : Error ε) : Refused e now c err e.processor
  /-- The processor refuses to give back what it was handed. -/
  | withdrawal {f : Frame} {cause : ε} {p : π}
      (hp : ReportProcessor.discard e.processor now e.address f.refSlot = ⟨.error cause, p⟩) :
      Refused e now c (.processor cause) p
  /-- The processor refuses a report, and was not asked to give another one back. -/
  | handover {report : Digest} {refSlot deadline : Word} {cause : ε} {q : π}
      (hq : ReportProcessor.submit e.processor now e.address report refSlot deadline =
        ⟨.error cause, q⟩) :
      Refused e now c (.processor cause) q
  /-- The processor has given back one report and refuses the other. -/
  | dropped {f : Frame} {d : Digest} {p q : π} {cause : ε} (h : e.Drops now c f d p q cause) :
      Refused e now c (.processor cause) q

/-- A failed settlement of the votes after a change is one of the ways. -/
theorem Amends.refused (h : e.Amends now c e₁ true) (hs : e₁.Settled now ⟨.error err, e'⟩) :
    e.Refused now c err e'.processor := by
  have hkeeps := h.keeps
  have hagreed : ∀ refSlot, e₁.tally.agreedFor refSlot = e.tally.agreedFor refSlot := fun _ => by
    rw [Tally.agreedFor, Tally.agreedFor, hkeeps.agreed]
  cases hs with
  | notStarted _ =>
    rw [hkeeps.processor]
    exact .unasked _
  | withdrawalRefused _ _ hp =>
    rw [hkeeps.processor, hkeeps.address] at hp
    exact .withdrawal hp
  | handoverRefused hopen winner new hp hq =>
    rw [hkeeps.address] at hq
    cases hp with
    | nothing _ =>
      rw [hkeeps.processor] at hq
      exact .handover hq
    | accepted handed hp =>
      -- What was given back is another report than the one that is refused.
      rw [handed] at new
      rw [hagreed] at handed
      rw [hkeeps.processor, hkeeps.address] at hp
      exact .dropped ⟨hp, e₁, _, ⟨h, hopen, handed, winner, fun hsame => new (hsame ▸ rfl)⟩, hq⟩

/-- A call is refused in one of the ways listed, and the engine is what it was but for its
processor. -/
theorem refused (h : e.perform now c = ⟨.error err, e'⟩) :
    e.Refused now c err e'.processor ∧ { e with processor := e'.processor } = e' := by
  have hp := e.performed now c
  rw [h] at hp
  cases hp with
  | refused _ => exact ⟨.unasked err, rfl⟩
  | undone hamends hs =>
    have hrefused := hamends.refused hs
    exact ⟨hrefused, rfl⟩

/-- Whatever a refused call has asked of the processor, the processor is still the same one. -/
theorem Refused.asked (h : e.Refused now c err p) : Asked now e.address e.processor p := by
  cases h with
  | unasked _ => exact .nothing
  | withdrawal hp => exact Asked.nothing.of_discard hp
  | handover hq => exact Asked.nothing.of_submit hq
  | dropped h =>
    obtain ⟨_, _, -, hq⟩ := h.refused
    exact (Asked.nothing.of_discard h.discarded).of_submit hq

theorem Withdrawn.asked {refSlot : Word} {p : π} (h : e.Withdrawn now refSlot p) :
    Asked now e.address e.processor p := by
  cases h with
  | nothing _ => exact .nothing
  | accepted _ hp => exact Asked.nothing.of_discard hp

/-- Settling the votes asks the processor, and does nothing else to it. -/
theorem Settled.asked {r : Reply (Error ε) (Engine π) Unit} (h : e.Settled now r) :
    Asked now e.address e.processor r.state.processor := by
  cases h with
  | withdrawalRefused _ _ hp => exact Asked.nothing.of_discard hp
  | lost _ _ _ hp => exact Asked.nothing.of_discard hp
  | handoverRefused _ _ _ hp hq => exact hp.asked.of_submit hq
  | reached _ _ _ hp hq => exact hp.asked.of_submit hq
  | _ => exact .nothing

/-! ### A dropped report makes the call fail -/

/-- After a change that may have moved the majority, what is left of a call is to settle the
votes. -/
theorem perform_of_amends (h : e.Amends now c e₁ true) :
    e.perform now c = perform.answerNone (e.restoreOnError (e₁.settle now)) := by
  have hreform : ∀ {x : Except (Error ε) (Engine π)}, x = .ok e₁ →
      e₁.schedule.isActive now = true → e.reform now x = e.restoreOnError (e₁.settle now) := by
    rintro _ rfl hactive
    rw [reform, settleIfActive, if_pos hactive]
  generalize hsettles : true = settles at h
  cases h with
  | addMember hrole hr hq =>
    refine congrArg perform.answerNone (hreform ?_ (by simpa [emit] using hsettles.symm))
    simp only [bind_eq_ok, mapError_eq_ok, demand_eq_ok, withQuorum_eq_ok]
    exact ⟨(), hrole, _, hr, ⟨hq.majority, hq.role⟩, rfl⟩
  | removeMember hrole hr hq =>
    refine congrArg perform.answerNone (hreform ?_ (by simpa [emit] using hsettles.symm))
    simp only [bind_eq_ok, mapError_eq_ok, demand_eq_ok]
    exact ⟨(), hrole, _, hr, withQuorum_eq_ok.mpr ⟨⟨hq.majority, hq.role⟩, rfl⟩⟩
  | setQuorum hq =>
    refine congrArg perform.answerNone (hreform ?_ (by simpa using hsettles.symm))
    exact withQuorum_eq_ok.mpr ⟨hq, rfl⟩
  | disableConsensus hq =>
    refine congrArg perform.answerNone (hreform ?_ (by simpa using hsettles.symm))
    exact withQuorum_eq_ok.mpr ⟨hq, rfl⟩
  | @submitReport sender vote version admission hjudge =>
    obtain rfl : admission = .counted := of_decide_eq_true hsettles.symm
    rw [perform, submitReport, hjudge]
  | _ => cases hsettles

/-- If the processor drops a report, the call is refused, and what is left of the processor is what
it has become on the way. -/
theorem perform_of_drops {cause : ε} (h : e.Drops now c f d p q cause) :
    e.perform now c = ⟨.error (.processor cause), { e with processor := q }⟩ := by
  obtain ⟨e₁, v, hover, hq⟩ := h.refused
  have hkeeps := hover.amends.keeps
  have hagreed : e₁.tally.agreedFor f.refSlot = some d := by
    rw [Tally.agreedFor, hkeeps.agreed]
    exact hover.handed
  have hchanged : ¬ (e₁.winnerFor f.refSlot).map (·.report) = e₁.tally.agreedFor f.refSlot := by
    rw [hover.winner, hagreed]
    exact fun hsame => hover.new (Option.some.inj hsame)
  have hdiscard := h.discarded
  rw [← hkeeps.processor, ← hkeeps.address] at hdiscard
  rw [← hkeeps.address] at hq
  have hsettle : e₁.settle now = ⟨.error (.processor cause), { e₁ with processor := q }⟩ := by
    rw [settle, settlement_of_open hover.isOpen, if_neg hchanged, hagreed]
    dsimp only
    rw [carryOut, withdraw_of_held rfl, hdiscard, hover.winner]
    dsimp only [Reply.map, Except.mapError, id_eq]
    rw [hq]
  rw [perform_of_amends hover.amends, hsettle]
  rfl

end Engine

end ReportQuorum
