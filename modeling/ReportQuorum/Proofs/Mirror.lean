import ReportQuorum.Proofs.Service

/-!
# Engine and oracle agree on what is agreed

An engine notes which report it has handed on, and its oracle holds a report of its own. The two are
changed in separate places, and either may refuse half-way; still they always say the same, at
whichever moments the calls come.

## Main definitions

* `Engine.Mirrored`: the oracle holds what the engine has noted

## Main results

* `Engine.Mirrored.settled`: settling the votes keeps it, also where it fails
* `Engine.Mirrored.perform`: every call keeps it unless it replaces the oracle
-/

namespace ReportQuorum.Engine

variable {η φ : Type} {e e' : Engine (Oracle η)} {now refSlot : Word}

/-- The oracle is bound to the engine and holds what the engine has noted as agreed. -/
structure Mirrored (e : Engine (Oracle η)) : Prop where
  bound : e.processor.engine = e.address
  grid : e.processor.grid = e.schedule.grid
  /-- An oracle takes no zero digest, so none may win. -/
  named : e.tally.Named
  agreed : e.tally.agreed = e.processor.held

namespace Mirrored

theorem held_of_agreedFor (h : e.Mirrored) {d : Digest} (hd : e.tally.agreedFor refSlot = some d) :
    e.processor.held = some ⟨refSlot, d⟩ := by
  rw [← h.agreed]
  exact Tally.agreedFor_eq_some_iff.mp hd

theorem agreed_eq_some (h : e.Mirrored) {d : Digest} : e.tally.agreed = some ⟨refSlot, d⟩ ↔
    e.processor.report.refSlot = refSlot ∧ e.processor.report.report = d ∧ d ≠ Octets.zero := by
  rw [h.agreed]
  exact Oracle.held_eq_some

theorem agreed_eq_none (h : e.Mirrored) :
    e.tally.agreed = none ↔ e.processor.report.report = Octets.zero := by
  rw [h.agreed]
  exact Oracle.held_eq_none

theorem of_keeps (h : e.Mirrored) (hkeeps : e.Keeps e') (hnamed : e'.tally.Named) :
    e'.Mirrored where
  bound := by rw [hkeeps.processor, hkeeps.address, h.bound]
  grid := by rw [hkeeps.processor, hkeeps.grid, h.grid]
  named := hnamed
  agreed := by rw [hkeeps.processor, hkeeps.agreed, h.agreed]

/-- Only what the oracle holds and what it is bound to matter. -/
theorem with_processor (h : e.Mirrored) {o : Oracle η} (hengine : o.engine = e.processor.engine)
    (hgrid : o.grid = e.processor.grid) (hheld : o.held = e.processor.held) :
    { e with processor := o }.Mirrored where
  bound := hengine.trans h.bound
  grid := hgrid.trans h.grid
  named := h.named
  agreed := h.agreed.trans hheld.symm

section Handler

variable [ReportHandler η φ]

/-! ### Settling the votes -/

/-- What the oracle is after it was asked to give back what it was handed. -/
theorem held_of_withdrawn (h : e.Mirrored) {p : Oracle η} (hp : e.Withdrawn now refSlot p) :
    p.engine = e.processor.engine ∧ p.grid = e.processor.grid ∧
      p.processingSlot = e.processor.processingSlot ∧
      (e.tally.agreedFor refSlot = none ∧ p = e.processor ∨
        p.report.refSlot = refSlot ∧ p.held = none) := by
  cases hp with
  | nothing hnone => exact ⟨rfl, rfl, rfl, .inl ⟨hnone, rfl⟩⟩
  | accepted hd hp =>
    obtain ⟨hslot, handler, rfl⟩ := Oracle.eq_of_discard_eq_ok (h.held_of_agreedFor hd) hp
    exact ⟨rfl, rfl, rfl, .inr ⟨hslot, Oracle.held_eq_none.mpr rfl⟩⟩

/-- An oracle that has given back what it held takes the new report. -/
theorem accepts_of_withdrawn (h : e.Mirrored) {f : Frame} {v : Variant} {p : Oracle η}
    (hopen : e.Open now f) (winner : e.winnerFor f.refSlot = some v)
    (hp : e.Withdrawn now f.refSlot p) (hslot : p.report.refSlot = f.refSlot) :
    p.Accepts now e.address v.report f.refSlot (e.schedule.deadlineTime f) := by
  obtain ⟨hengine, hgrid, hprocessing, -⟩ := h.held_of_withdrawn hp
  refine hopen.accepts (hengine.trans h.bound) (hgrid.trans h.grid) hprocessing ?_ ?_
  · rw [hslot]
    exact UInt64.le_refl _
  · exact h.named _ (Tally.exists_of_winner winner).1

/-- Settling the votes keeps engine and oracle together, also where it fails. -/
theorem settled (h : e.Mirrored) {r : Reply (Error (Oracle.Error φ)) (Engine (Oracle η)) Unit}
    (hs : e.Settled now r) : r.state.Mirrored := by
  cases hs with
  | notStarted _ => exact h
  | closed _ _ => exact h
  | unchanged _ _ => exact h
  | withdrawalRefused _ _ hp =>
    obtain ⟨handler, rfl⟩ := Oracle.eq_of_discard_eq_error hp
    exact h.with_processor rfl rfl rfl
  | lost _ _ held hp =>
    obtain ⟨-, handler, rfl⟩ := Oracle.eq_of_discard_eq_ok (h.held_of_agreedFor held) hp
    exact ⟨h.bound, h.grid, h.named, (Oracle.held_eq_none.mpr rfl).symm⟩
  | @handoverRefused f v _ p q hopen winner _ hp hq =>
    obtain rfl := Oracle.submit_refused hq
    obtain ⟨-, -, -, ⟨-, rfl⟩ | ⟨hslot, -⟩⟩ := h.held_of_withdrawn hp
    · exact h
    · -- Nothing has been lost: a report that was given back is followed by the next.
      have haccepts := h.accepts_of_withdrawn hopen winner hp hslot
      have hok := Oracle.submit_eq_ok (φ := φ) |>.mpr ⟨haccepts, rfl⟩
      exact absurd (hq.symm.trans hok) (by simp)
  | @reached f v p q _ winner _ hp hq =>
    obtain ⟨haccepts, rfl⟩ := Oracle.submit_eq_ok.mp hq
    obtain ⟨hengine, hgrid, -⟩ := h.held_of_withdrawn hp
    refine ⟨?_, ?_, h.named, ?_⟩
    · exact (Oracle.taking_engine).trans (hengine.trans h.bound)
    · exact (Oracle.taking_grid).trans (hgrid.trans h.grid)
    · exact (Oracle.held_eq_some.mpr
        ⟨congrArg _ Oracle.taking_report, congrArg _ Oracle.taking_report, haccepts.report⟩).symm

/-! ### Calls -/

theorem performed (h : e.Mirrored) {c : Command (Oracle η)}
    {r : Reply (Error (Oracle.Error φ)) (Engine (Oracle η)) (Option (Oracle η))}
    (hr : e.Performed now c r) (hc : c.replaces = false) :
    r.state.Mirrored := by
  cases hr with
  | refused _ => exact h
  | amended hamends => exact h.of_keeps hamends.keeps (hamends.named h.named)
  | settled hamends hs =>
    have h₁ := h.of_keeps hamends.keeps (hamends.named h.named)
    exact h₁.settled hs
  | undone hamends hs =>
    have h₁ := h.of_keeps hamends.keeps (hamends.named h.named)
    have h₂ := h₁.settled hs
    -- The failed settlement has noted nothing, so the old engine still agrees with the new oracle.
    obtain ⟨o, rfl⟩ := hs.eq_of_error
    exact
      { bound := h₂.bound.trans hamends.keeps.address
        grid := h₂.grid.trans hamends.keeps.grid
        named := h.named
        agreed := hamends.keeps.agreed.symm.trans h₂.agreed }
  | replaced _ _ _ _ => cases hc

/-- A call that does not replace the oracle keeps engine and oracle together. -/
theorem perform (h : e.Mirrored) {c : Command (Oracle η)}
    (hc : c.replaces = false) : (e.perform now c).state.Mirrored :=
  h.performed (e.performed now c) hc

/-- Starting to process the report changes nothing of what the oracle holds. -/
theorem startProcessing (h : e.Mirrored) :
    { e with processor := (e.processor.startProcessing (φ := φ) now).state }.Mirrored := by
  have hstarted := e.processor.started (φ := φ) now
  cases hr : e.processor.startProcessing (φ := φ) now with
  | mk result o =>
    rw [hr] at hstarted
    cases hstarted with
    | refused _ => exact h
    | handlerRefused _ => exact h.with_processor rfl rfl rfl
    | started _ _ _ _ => exact h.with_processor rfl rfl rfl

end Handler

end Mirrored

end ReportQuorum.Engine
