import ReportQuorum.Proofs.Activation
import ReportQuorum.Proofs.OracleLife
import ReportQuorum.Proofs.Service

/-!
# Slots that are done with

An oracle marks the reference slot that it starts to process, and takes no report for a slot up to
its mark. Frames pass on, and no change brings back an earlier one. So with an oracle a slot is done
once the oracle has marked it, or once the frames have passed it and the oracle holds nothing more
for it.

## Main definitions

* `Engine.Orderly`: runs of an engine over oracles, on a clock that does not go back
* `Engine.Past`: the current reference slot comes after a slot
* `Engine.Done`: with an oracle a slot is done

## Main results

* `Engine.Past.performed`: no call brings back an earlier reference slot
* `Engine.Done.of_served`: no call of the engine reopens a slot
* `Engine.Done.ne_of_started`: an oracle does not start what is done with
-/

namespace ReportQuorum

namespace Engine

/-! ### Slots that are past -/

section Past

variable {π ε : Type} [ReportProcessor π ε] {e e₁ : Engine π} {now now' r : Word} {c : Command π}

/-- The current reference slot comes after a slot. -/
def Past (e : Engine π) (now r : Word) : Prop :=
  ∃ f, e.schedule.frameAt now = .ok f ∧ r < f.refSlot

theorem Past.of_onward (h : e.Past now r) (honward : e.schedule.Onward now e₁.schedule now') :
    e₁.Past now' r := by
  obtain ⟨f, hf, hlt⟩ := h
  obtain ⟨f', hf', hle⟩ := honward.frame hf
  exact ⟨f', hf', UInt64.lt_of_lt_of_le hlt hle⟩

theorem Past.mono (h : e.Past now r) (hnow : now ≤ now') : e.Past now' r :=
  h.of_onward (Schedule.onward_of_le hnow)

theorem Past.congr (h : e.Past now r) (hschedule : e₁.schedule = e.schedule) : e₁.Past now r := by
  rw [Past, hschedule]
  exact h

/-- No change of an engine brings back an earlier reference slot. -/
theorem Past.amends {settles : Bool} (h : e.Past now r) (hc : e.Amends now c e₁ settles) :
    e₁.Past now r :=
  h.of_onward hc.onward

theorem Past.performed {res : Reply (Error ε) (Engine π) (Option π)}
    (h : e.Past now r) (hr : e.Performed now c res) : res.state.Past now r :=
  h.of_onward hr.onward

end Past

variable {η φ : Type} [ReportHandler η φ] {e e₁ : Engine (Oracle η)} {now now' r : Word}
  {o o' : Oracle η} {c : Command (Oracle η)} {run run' : List (Word × Act (Oracle η))}

/-! ### Orderly runs -/

/-- An oracle may be used by an engine: it is bound to the engine and shares its grid. -/
structure Suits (e : Engine (Oracle η)) (o : Oracle η) : Prop where
  arises : o.Arises
  engine : o.engine = e.address
  grid : o.grid = e.schedule.grid

/-- What happens in an orderly run: calls, of which those that replace the oracle offer one that may
be used, and what the oracle and its handler do without the engine. -/
inductive Proper (e : Engine (Oracle η)) (now : Word) : Act (Oracle η) → Prop
  | call {c : Command (Oracle η)} (h : ∀ caller o, c = .setReportProcessor caller o → e.Suits o) :
      Proper e now (.call c)
  | tend {f : Oracle η → Oracle η} (h : e.processor.Tended now (f e.processor)) :
      Proper e now (.tend f)
  | drain : Proper e now .drain

/-- A call that replaces nothing is proper. -/
theorem Proper.of_not_replaces {e : Engine (Oracle η)} {now : Word} {c : Command (Oracle η)}
    (hc : c.replaces = false) : e.Proper now (.call c) := by
  refine .call ?_
  rintro _ _ rfl
  cases hc

/-- A run on a clock that does not go back from a moment on, in which only proper things happen. -/
structure Orderly (e : Engine (Oracle η)) (since : Word) (run : List (Word × Act (Oracle η))) :
    Prop where
  clock : (since :: run.map (·.1)).Pairwise (· ≤ ·)
  proper : e.Throughout Proper run

theorem orderly_cons {since : Word} {a : Act (Oracle η)} :
    e.Orderly since ((now, a) :: run) ↔
      since ≤ now ∧ e.Proper now a ∧ (e.act now a).Orderly now run := by
  constructor
  · rintro ⟨hclock, hproper⟩
    obtain ⟨hsince, hclock⟩ := List.pairwise_cons.mp hclock
    exact ⟨hsince now (by simp), hproper.1, hclock, hproper.2⟩
  · rintro ⟨hnow, ha, hclock, hproper⟩
    refine ⟨List.pairwise_cons.mpr ⟨?_, hclock⟩, ha, hproper⟩
    intro t ht
    obtain rfl | ht := List.mem_cons.mp ht
    · exact hnow
    · exact UInt64.le_trans hnow ((List.pairwise_cons.mp hclock).1 t ht)

/-! ### Slots that are done with -/

/-- What an oracle holds for a slot can no longer be started, if it holds anything for it. -/
def Spent (o : Oracle η) (now r : Word) : Prop :=
  ∀ d, o.held = some ⟨r, d⟩ → o.grid.slotAt o.report.deadline < o.grid.slotAt now

/-- With an oracle a slot is done: the oracle has marked it or a later one, or the frames have
passed it and the oracle holds nothing for it that can still be started. -/
def Done (e : Engine (Oracle η)) (now r : Word) (o : Oracle η) : Prop :=
  r ≤ o.processingSlot ∨ e.Past now r ∧ Spent o now r

/-- An oracle works for an engine. -/
structure Bound (e : Engine (Oracle η)) (o : Oracle η) : Prop where
  engine : o.engine = e.address
  grid : o.grid = e.schedule.grid
  processingSlot_le : o.processingSlot ≤ o.report.refSlot

theorem Suits.bound (h : e.Suits o) : e.Bound o :=
  ⟨h.engine, h.grid, h.arises.processingSlot_le⟩

theorem Bound.congr (h : e.Bound o) (haddress : e₁.address = e.address)
    (hgrid : e₁.schedule.grid = e.schedule.grid) : e₁.Bound o where
  engine := by rw [haddress, h.engine]
  grid := by rw [hgrid, h.grid]
  processingSlot_le := h.processingSlot_le

theorem Spent.mono (h : Spent o now r) (hnow : now ≤ now') : Spent o now' r := fun d hd =>
  UInt64.lt_of_lt_of_le (h d hd) (TimeGrid.slotAt_mono hnow)

theorem Done.mono (h : e.Done now r o) (hnow : now ≤ now') : e.Done now' r o :=
  h.imp_right fun ⟨hpast, hspent⟩ => ⟨hpast.mono hnow, hspent.mono hnow⟩

/-- What an oracle does on its own does not reopen a slot. -/
theorem Done.of_marks (h : e.Done now r o) (hbound : e.Bound o) (hmarks : o.Marks o') :
    e.Done now r o' := by
  obtain hmarked | ⟨hpast, hspent⟩ := h
  · left
    obtain hsame | hmoved := hmarks.processingSlot
    · rw [hsame]
      exact hmarked
    · rw [hmoved]
      exact UInt64.le_trans hmarked hbound.processingSlot_le
  · refine .inr ⟨hpast, fun d hd => ?_⟩
    rw [Oracle.held_congr hmarks.report] at hd
    rw [hmarks.grid, hmarks.report]
    exact hspent d hd

theorem Bound.of_marks (h : e.Bound o) (hmarks : o.Marks o') : e.Bound o' where
  engine := hmarks.engine.trans h.engine
  grid := hmarks.grid.trans h.grid
  processingSlot_le := by
    rw [hmarks.report]
    obtain hsame | hmoved := hmarks.processingSlot
    · rw [hsame]
      exact h.processingSlot_le
    · rw [hmoved]
      exact UInt64.le_refl _

theorem Bound.of_served {P : Word → Prop} (h : e.Bound o) (hserved : Oracle.Served P o o')
    (haddress : e₁.address = e.address) (hgrid : e₁.schedule.grid = e.schedule.grid) :
    e₁.Bound o' where
  engine := by rw [hserved.engine, haddress, h.engine]
  grid := by rw [hserved.grid, hgrid, h.grid]
  processingSlot_le := by
    rw [hserved.processingSlot]
    exact UInt64.le_trans h.processingSlot_le hserved.refSlot_le

/-- The slots for which a call serves an oracle come after one that is done with. -/
theorem Done.lt_of_current (h : e.Done now r o) {slot : Word} (hpast : e.Past now r → e₁.Past now r)
    (hcurrent : e₁.IsCurrent now slot) (hmark : o.processingSlot < slot) : r < slot := by
  obtain hmarked | ⟨hold, -⟩ := h
  · exact UInt64.lt_of_le_of_lt hmarked hmark
  · obtain ⟨f, hf, hlt⟩ := hpast hold
    obtain ⟨f', hf', rfl⟩ := hcurrent
    rw [Except.ok.inj (hf.symm.trans hf')] at hlt
    exact hlt

theorem Done.of_served (h : e.Done now r o) (hpast : e.Past now r → e₁.Past now r)
    (hserved : Oracle.Served (e₁.IsCurrent now) o o') : e₁.Done now r o' := by
  obtain hmarked | ⟨hold, hspent⟩ := id h
  · left
    rw [hserved.processingSlot]
    exact hmarked
  · refine .inr ⟨hpast hold, fun d hd => ?_⟩
    obtain ⟨-, hnone | hsame⟩ | ⟨hcurrent, hmark, -⟩ := hserved.report
    · rw [hnone] at hd
      cases hd
    · rw [Oracle.held_congr hsame] at hd
      rw [hserved.grid, hsame]
      exact hspent d hd
    · -- What is new is for a later slot.
      have hlt := h.lt_of_current hpast hcurrent hmark
      rw [(Oracle.held_eq_some.mp hd).1] at hlt
      exact absurd hlt (UInt64.lt_irrefl _)

/-- An oracle does not start what is done with. -/
theorem Done.ne_of_started (h : e.Done now r o) (hbound : e.Bound o) {previous : Word}
    (hstart : (o.startProcessing (φ := φ) now).result = .ok previous) : o.report.refSlot ≠ r := by
  intro hslot
  have hstarted := o.started (φ := φ) now
  cases hr : o.startProcessing (φ := φ) now with
  | mk result o' =>
    rw [hr] at hstarted hstart
    dsimp only at hstart
    subst hstart
    cases hstarted with
    | started pending new timely _ =>
      -- What is marked is not started again, and what is spent comes too late.
      obtain hmarked | ⟨-, hspent⟩ := h
      · rw [← hslot] at hmarked
        exact new (UInt64.le_antisymm hmarked hbound.processingSlot_le)
      · have hlate := hspent _ (Oracle.held_eq_some.mpr ⟨hslot, rfl, pending⟩)
        exact UInt64.not_le.mpr hlate timely

end Engine

end ReportQuorum
