import ReportQuorum.Proofs.OracleCalls
import ReportQuorum.Proofs.Runs

/-!
# What a call of an engine does to its oracle

An engine only hands over reports and asks for them back. It never moves its oracle's mark, and what
it hands over is for the current reference slot, which comes after the mark.

## Main definitions

* `Oracle.Served`: an oracle was handed reports for certain slots, and gave others back
* `Engine.incumbent`: the processor that is bound after a call, as it was before the call
* `Engine.told`: what a call adds to the events of its oracle

## Main results

* `Engine.served_perform`: how a call serves the oracle that is bound after it
* `Engine.submitted_of_told`: what an event says that tells of a submission
-/

namespace ReportQuorum

namespace Oracle

variable {η φ : Type} {P Q : Word → Prop} {o o₁ o₂ : Oracle η} {now refSlot deadline : Word}
  {sender : Address} {report : Digest}

/-- An oracle was asked to give back what it holds or handed reports for slots of which `P` is true,
in some order, and nothing else happened to it. -/
structure Served (P : Word → Prop) (o o' : Oracle η) : Prop where
  engine : o'.engine = o.engine
  grid : o'.grid = o.grid
  processingSlot : o'.processingSlot = o.processingSlot
  /-- What is held afterwards was held before, or is new. -/
  report : o'.report.refSlot = o.report.refSlot ∧ (o'.held = none ∨ o'.report = o.report) ∨
    P o'.report.refSlot ∧ o.processingSlot < o'.report.refSlot ∧
      o.report.refSlot ≤ o'.report.refSlot
  events : ∃ events, o'.events = o.events ++ events ∧ ∀ refSlot report deadline,
    .reportSubmitted refSlot report deadline ∈ events → P refSlot ∧ o.processingSlot < refSlot

namespace Served

theorem refl : Served P o o :=
  ⟨rfl, rfl, rfl, .inl ⟨rfl, .inr rfl⟩, [], (List.append_nil _).symm, nofun⟩

theorem mono (h : Served P o o₁) (hPQ : ∀ slot, P slot → Q slot) : Served Q o o₁ := by
  obtain ⟨events, heq, hevents⟩ := h.events
  refine ⟨h.engine, h.grid, h.processingSlot, ?_, events, heq, ?_⟩
  · exact h.report.imp_right fun ⟨hP, hrest⟩ => ⟨hPQ _ hP, hrest⟩
  · intro refSlot report deadline hmem
    obtain ⟨hP, hlt⟩ := hevents refSlot report deadline hmem
    exact ⟨hPQ _ hP, hlt⟩

theorem trans (h₁ : Served P o o₁) (h₂ : Served P o₁ o₂) : Served P o o₂ := by
  obtain ⟨events₁, heq₁, hevents₁⟩ := h₁.events
  obtain ⟨events₂, heq₂, hevents₂⟩ := h₂.events
  refine ⟨h₂.engine.trans h₁.engine, h₂.grid.trans h₁.grid,
    h₂.processingSlot.trans h₁.processingSlot, ?_, events₁ ++ events₂, ?_, ?_⟩
  · have hreport₂ := h₂.report
    rw [h₁.processingSlot] at hreport₂
    -- The later of two reports handed over is the one that counts.
    obtain ⟨hslot₂, hheld₂⟩ | ⟨hP, hlt, hle₂⟩ := hreport₂
    · rw [hslot₂]
      obtain ⟨hslot₁, hheld₁⟩ | hnew := h₁.report
      · refine .inl ⟨hslot₁, ?_⟩
        obtain hnone | hsame := hheld₂
        · exact .inl hnone
        · rw [held_congr hsame, hsame]
          exact hheld₁
      · exact .inr hnew
    · refine .inr ⟨hP, hlt, ?_⟩
      obtain ⟨hslot₁, -⟩ | ⟨-, -, hle₁⟩ := h₁.report
      · rw [← hslot₁]
        exact hle₂
      · exact UInt64.le_trans hle₁ hle₂
  · rw [heq₂, heq₁, List.append_assoc]
  · intro refSlot report deadline hmem
    obtain hmem | hmem := List.mem_append.mp hmem
    · exact hevents₁ refSlot report deadline hmem
    · rw [← h₁.processingSlot]
      exact hevents₂ refSlot report deadline hmem

/-- An oracle that was handed nothing keeps its slot, also if it has given back the report. -/
theorem refSlot_eq (h : Served (fun _ => False) o o₁) : o₁.report.refSlot = o.report.refSlot := by
  obtain ⟨hslot, -⟩ | ⟨hnever, -⟩ := h.report
  · exact hslot
  · exact hnever.elim

/-- The slot held stays or moves on. -/
theorem refSlot_le (h : Served P o o₁) : o.report.refSlot ≤ o₁.report.refSlot := by
  obtain ⟨hslot, -⟩ | ⟨-, -, hle⟩ := h.report
  · rw [hslot]
    exact UInt64.le_refl _
  · exact hle

end Served

theorem served_submit (hP : P refSlot) {u : Unit}
    (h : o.submit (φ := φ) now sender report refSlot deadline = ⟨.ok u, o₁⟩) : Served P o o₁ := by
  obtain ⟨haccepts, rfl⟩ := submit_eq_ok.mp h
  refine ⟨taking_engine, taking_grid, taking_processingSlot, .inr ?_, _, taking_events, ?_⟩
  · rw [taking_report]
    exact ⟨hP, haccepts.unprocessed, haccepts.notBefore⟩
  · intro slot digest time hmem
    -- Whether an event tells of a missed report does not matter here.
    have hslot : slot = refSlot := by
      rw [passedOver] at hmem
      split at hmem <;> simp at hmem <;> exact hmem.1
    rw [hslot]
    exact ⟨hP, haccepts.unprocessed⟩

theorem served_discard [ReportHandler η φ] {result : Except (Error φ) Unit}
    (h : o.discard sender refSlot = ⟨result, o₁⟩) : Served P o o₁ := by
  have hd := o.discarded (φ := φ) sender refSlot
  rw [h] at hd
  cases hd with
  | refused _ _ => exact .refl
  | nothing _ => exact .refl
  | handlerRefused _ =>
    exact ⟨rfl, rfl, rfl, .inl ⟨rfl, .inr rfl⟩, [], (List.append_nil _).symm, nofun⟩
  | withdrawn _ _ _ _ =>
    exact ⟨rfl, rfl, rfl, .inl ⟨rfl, .inl (held_eq_none.mpr rfl)⟩, _, rfl, by simp⟩

end Oracle

namespace Engine

section Generic

variable {π ε : Type} [ReportProcessor π ε] {e e₁ : Engine π} {now : Word} {c : Command π}

/-- The processor that is bound once a call is accepted, as it was before the call. -/
def Command.successor (c : Command π) (p : π) : π :=
  match c with
  | .setReportProcessor _ p' => p'
  | _ => p

/-- The processor that is bound after a call, as it was before the call. -/
def incumbent (e : Engine π) (now : Word) (c : Command π) : π :=
  if e.accepts now c then c.successor e.processor else e.processor

theorem Command.successor_eq (hc : c.replaces = false) (p : π) : c.successor p = p := by
  cases c with
  | setReportProcessor _ _ => cases hc
  | _ => rfl

theorem incumbent_eq (hc : c.replaces = false) : e.incumbent now c = e.processor := by
  rw [incumbent, Command.successor_eq hc, ite_self]

theorem Amends.replaces {settles : Bool} (h : e.Amends now c e₁ settles) : c.replaces = false := by
  cases h <;> rfl

theorem Performed.address {r : Reply (Error ε) (Engine π) (Option π)} (h : e.Performed now c r) :
    r.state.address = e.address := by
  cases h with
  | amended hamends => exact hamends.keeps.address
  | settled hamends hs => exact hs.sameVotes.address.trans hamends.keeps.address
  | _ => rfl

theorem Performed.grid {r : Reply (Error ε) (Engine π) (Option π)} (h : e.Performed now c r) :
    r.state.schedule.grid = e.schedule.grid := by
  cases h with
  | amended hamends => exact hamends.keeps.grid
  | settled hamends hs =>
    exact (congrArg Schedule.grid hs.sameVotes.schedule).trans hamends.keeps.grid
  | _ => rfl

end Generic

variable {η φ : Type} [ReportHandler η φ] {e e₁ : Engine (Oracle η)} {now : Word}
  {c : Command (Oracle η)}

/-- A slot is the current reference slot. -/
def IsCurrent (e : Engine (Oracle η)) (now slot : Word) : Prop :=
  ∃ f, e.schedule.frameAt now = .ok f ∧ f.refSlot = slot

/-- In an open frame an oracle takes a report if it holds none for a later slot. -/
theorem Open.accepts {f : Frame} (h : e.Open now f) {o : Oracle η} {report : Digest}
    (hengine : o.engine = e.address) (hgrid : o.grid = e.schedule.grid)
    (hmark : o.processingSlot = e.processor.processingSlot) (hroom : o.report.refSlot ≤ f.refSlot)
    (hreport : report ≠ Octets.zero) :
    o.Accepts now e.address report f.refSlot (e.schedule.deadlineTime f) := by
  have hunlocked : ¬ f.refSlot ≤ e.processor.processingSlot := of_decide_eq_false h.unlocked
  refine ⟨hengine.symm, hreport, hroom, ?_, ?_⟩
  · rw [hmark]
    exact UInt64.not_le.mp hunlocked
  · rw [hgrid]
    exact TimeGrid.slotAt_le_slotAt_timeOfSlot h.timely

/-- What a call adds to the events of the oracle that is bound after it. -/
def told (e : Engine (Oracle η)) (now : Word) (c : Command (Oracle η)) : List Oracle.Event :=
  (e.perform now c).state.processor.events.drop (e.incumbent now c).events.length

theorem Withdrawn.served {P : Word → Prop} {refSlot : Word} {o : Oracle η}
    (h : e.Withdrawn now refSlot o) : Oracle.Served P e.processor o := by
  cases h with
  | nothing _ => exact .refl
  | accepted _ hp => exact Oracle.served_discard hp

/-- A settlement serves its oracle with a report for the current slot, or not at all if it fails. -/
theorem Settled.served {r : Reply (Error (Oracle.Error φ)) (Engine (Oracle η)) Unit}
    (h : e.Settled now r) :
    Oracle.Served (fun slot => r.result.isOk = true ∧ e.IsCurrent now slot) e.processor
      r.state.processor := by
  cases h with
  | notStarted _ => exact .refl
  | closed _ _ => exact .refl
  | unchanged _ _ => exact .refl
  | withdrawalRefused _ _ hp => exact Oracle.served_discard hp
  | lost _ _ _ hp => exact Oracle.served_discard hp
  | handoverRefused _ _ _ hp hq =>
    -- An oracle that refuses a report is as it was, but what it gave back is gone.
    obtain rfl := Oracle.submit_refused hq
    exact hp.served
  | reached hopen _ _ hp hq =>
    exact hp.served.trans (Oracle.served_submit ⟨rfl, _, hopen.current, rfl⟩ hq)

theorem Performed.served
    {r : Reply (Error (Oracle.Error φ)) (Engine (Oracle η)) (Option (Oracle η))}
    (h : e.Performed now c r) :
    Oracle.Served (r.state.IsCurrent now)
      (if r.result.isOk then c.successor e.processor else e.processor) r.state.processor := by
  cases h with
  | refused _ => exact .refl
  | amended hamends =>
    rw [Command.successor_eq hamends.replaces, hamends.keeps.processor, ite_self]
    exact .refl
  | settled hamends hs =>
    have hserved := hs.served
    rw [hamends.keeps.processor] at hserved
    rw [Command.successor_eq hamends.replaces, ite_self]
    refine hserved.mono ?_
    rintro slot ⟨-, f, hf, rfl⟩
    exact ⟨f, hs.sameVotes.schedule ▸ hf, rfl⟩
  | undone hamends hs =>
    have hserved := hs.served
    rw [hamends.keeps.processor] at hserved
    refine hserved.mono ?_
    -- A settlement that fails has handed over nothing, so there is no slot to speak of.
    rintro slot ⟨hok, -⟩
    cases hok
  | replaced _ _ _ hp =>
    obtain rfl | ⟨f, d, hframe, -, -, -, hsubmit⟩ := handOver_eq_ok hp
    · exact .refl
    · exact Oracle.served_submit ⟨f, hframe, rfl⟩ hsubmit

/-- A call serves the oracle that is bound after it with reports for the current slot at most. -/
theorem served_perform (e : Engine (Oracle η)) (now : Word) (c : Command (Oracle η)) :
    Oracle.Served ((e.perform now c).state.IsCurrent now) (e.incumbent now c)
      (e.perform now c).state.processor :=
  (e.performed now c).served

/-- A submission is for the current slot, and the oracle's mark was before it. -/
theorem submitted_of_told {refSlot deadline : Word} {report : Digest}
    (h : .reportSubmitted refSlot report deadline ∈ e.told now c) :
    (e.perform now c).state.IsCurrent now refSlot ∧
      (e.incumbent now c).processingSlot < refSlot := by
  obtain ⟨events, heq, hevents⟩ := (e.served_perform now c).events
  rw [told, heq, List.drop_left] at h
  exact hevents _ _ _ h

end Engine

end ReportQuorum
