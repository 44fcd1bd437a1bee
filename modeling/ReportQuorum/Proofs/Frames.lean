import ReportQuorum.Proofs.Success
import ReportQuorum.Schedule

/-!
# The order of slots and frames

Slots and frames follow each other as time does, and no change of a schedule that has started lets
the current frame fall back. The lemmas are about words: what saturates is shown not to matter.

## Main definitions

* `Schedule.startAt`: the first epoch of the frame of a moment

## Main results

* `TimeGrid.slotAt_le_slotAt_timeOfSlot`: before the end of a slot the first moment of the slot has
  not passed
* `Schedule.refSlot_mono`: later moments have no earlier reference slot
* `Schedule.refSlot_le_of_reconfigure`: a change of the layout does not lower the reference slot
-/

namespace ReportQuorum

namespace TimeGrid

variable {g : TimeGrid} {t t' : Word}

/-- A grid can be used if its epochs have slots and its slots have seconds. -/
theorem validate_eq_ok {u : Unit} :
    g.validate = .ok u ↔ 0 < g.slotsPerEpoch ∧ 0 < g.secondsPerSlot := by
  rw [validate, refusal_eq_ok (by simp), refusal_eq_ok (by simp)]
  simp [UInt64.pos_iff_ne_zero]

theorem toNat_slotAt (g : TimeGrid) (t : Word) :
    (g.slotAt t).toNat = (t.toNat - g.genesisTime.toNat) / g.secondsPerSlot.toNat := by
  rw [slotAt, UInt64.toNat_div, Word.toNat_subSat]

theorem toNat_epochAt (g : TimeGrid) (t : Word) :
    (g.epochAt t).toNat = (g.slotAt t).toNat / g.slotsPerEpoch.toNat := by
  rw [epochAt, UInt64.toNat_div]

theorem slotAt_mono (h : t ≤ t') : g.slotAt t ≤ g.slotAt t' := by
  rw [UInt64.le_iff_toNat_le] at h
  rw [UInt64.le_iff_toNat_le, toNat_slotAt, toNat_slotAt]
  exact Nat.div_le_div_right (Nat.sub_le_sub_right h _)

theorem epochAt_mono (h : t ≤ t') : g.epochAt t ≤ g.epochAt t' := by
  have hslot := UInt64.le_iff_toNat_le.mp (slotAt_mono (g := g) h)
  rw [UInt64.le_iff_toNat_le, toNat_epochAt, toNat_epochAt]
  exact Nat.div_le_div_right hslot

theorem toNat_timeOfSlot (g : TimeGrid) (slot : Word) :
    (g.timeOfSlot slot).toNat =
      min (g.genesisTime.toNat + slot.toNat * g.secondsPerSlot.toNat) (UInt64.size - 1) := by
  have := g.genesisTime.toNat_lt_size
  rw [timeOfSlot, Word.toNat_addSat, Word.toNat_mulSat]
  omega

/-- The first moment of a slot belongs to the slot if it fits a word. -/
theorem slotAt_timeOfSlot {slot : Word} (hpos : 0 < g.secondsPerSlot.toNat)
    (hfits : g.genesisTime.toNat + slot.toNat * g.secondsPerSlot.toNat < UInt64.size) :
    g.slotAt (g.timeOfSlot slot) = slot := by
  rw [← UInt64.toNat_inj, toNat_slotAt, toNat_timeOfSlot, Nat.min_eq_left (by omega),
    Nat.add_sub_cancel_left]
  exact Nat.mul_div_cancel _ hpos

/-- As long as a slot has not passed, neither has the slot of its first moment, though that moment
may be cut off at the last word. -/
theorem slotAt_le_slotAt_timeOfSlot {slot : Word} (h : g.slotAt t ≤ slot) :
    g.slotAt t ≤ g.slotAt (g.timeOfSlot slot) := by
  by_cases hfits : g.genesisTime.toNat + slot.toNat * g.secondsPerSlot.toNat < UInt64.size
  · obtain hzero | hpos := Nat.eq_zero_or_pos g.secondsPerSlot.toNat
    · -- Without a length of slots every moment is in slot zero.
      rw [UInt64.le_iff_toNat_le, toNat_slotAt, hzero, Nat.div_zero]
      exact Nat.zero_le _
    · rw [slotAt_timeOfSlot hpos hfits]
      exact h
  · refine slotAt_mono ?_
    have := t.toNat_lt_size
    rw [UInt64.le_iff_toNat_le, toNat_timeOfSlot]
    omega

end TimeGrid

namespace Schedule

variable {s s' : Schedule} {t t' : Word} {f f' : Frame}

/-- The first epoch of the frame of a moment, as a number. -/
def startAt (s : Schedule) (t : Word) : Nat :=
  s.layout.initialEpoch.toNat +
    ((s.grid.epochAt t).toNat - s.layout.initialEpoch.toNat) / s.layout.epochsPerFrame.toNat *
      s.layout.epochsPerFrame.toNat

theorem startAt_le (h : s.isActive t = true) : s.startAt t ≤ (s.grid.epochAt t).toNat := by
  have hle : s.layout.initialEpoch.toNat ≤ (s.grid.epochAt t).toNat := by
    simpa [isActive, UInt64.le_iff_toNat_le] using h
  have := Nat.div_mul_le_self ((s.grid.epochAt t).toNat - s.layout.initialEpoch.toNat)
    s.layout.epochsPerFrame.toNat
  rw [startAt]
  omega

theorem startAt_mono (h : t ≤ t') : s.startAt t ≤ s.startAt t' := by
  have hepoch := UInt64.le_iff_toNat_le.mp (TimeGrid.epochAt_mono (g := s.grid) h)
  rw [startAt, startAt]
  refine Nat.add_le_add_left (Nat.mul_le_mul_right _ (Nat.div_le_div_right ?_)) _
  exact Nat.sub_le_sub_right hepoch _

/-- There is a current frame exactly if the initial epoch has come. -/
theorem frameAt_eq_ok : s.frameAt t = .ok f ↔
    s.isActive t = true ∧
      s.frame ((s.grid.epochAt t - s.layout.initialEpoch) / s.layout.epochsPerFrame) = f := by
  rw [frameAt, frameIndexAt]
  by_cases h : s.grid.epochAt t < s.layout.initialEpoch
  · have hinactive : ¬ s.layout.initialEpoch ≤ s.grid.epochAt t := UInt64.not_le.mpr h
    simp [h, hinactive, isActive, Functor.map, Except.map]
  · simp [h, isActive, Functor.map, Except.map, UInt64.not_lt.mp h]

theorem toNat_startEpoch_of_frameAt (h : s.isActive t = true) :
    (s.startEpoch ((s.grid.epochAt t - s.layout.initialEpoch) / s.layout.epochsPerFrame)).toNat =
      s.startAt t := by
  have hle : s.layout.initialEpoch ≤ s.grid.epochAt t := by simpa [isActive] using h
  have hstart := startAt_le h
  -- The first epoch is not after the epoch of the moment, so nothing is cut off.
  have := (s.grid.epochAt t).toNat_lt_size
  rw [startAt] at hstart ⊢
  rw [startEpoch, Word.toNat_addSat, Word.toNat_mulSat, UInt64.toNat_div,
    UInt64.toNat_sub_of_le _ _ hle]
  omega

/-- A moment is not before the first slot of its frame. -/
theorem startAt_mul_le (h : s.isActive t = true) :
    s.startAt t * s.grid.slotsPerEpoch.toNat ≤ (s.grid.slotAt t).toNat := by
  calc s.startAt t * s.grid.slotsPerEpoch.toNat
      ≤ (s.grid.epochAt t).toNat * s.grid.slotsPerEpoch.toNat :=
        Nat.mul_le_mul_right _ (startAt_le h)
    _ = (s.grid.slotAt t).toNat / s.grid.slotsPerEpoch.toNat * s.grid.slotsPerEpoch.toNat := by
        rw [TimeGrid.toNat_epochAt]
    _ ≤ (s.grid.slotAt t).toNat := Nat.div_mul_le_self _ _

/-- The reference slot of a moment is the last slot before the first epoch of its frame. -/
theorem toNat_refSlot (h : s.frameAt t = .ok f) :
    f.refSlot.toNat = s.startAt t * s.grid.slotsPerEpoch.toNat - 1 := by
  obtain ⟨hactive, rfl⟩ := frameAt_eq_ok.mp h
  have hslots := startAt_mul_le hactive
  have := (s.grid.slotAt t).toNat_lt_size
  rw [frame, Word.toNat_subSat, TimeGrid.firstSlot, Word.toNat_mulSat,
    toNat_startEpoch_of_frameAt hactive]
  simp only [UInt64.reduceToNat]
  omega

/-- Later moments have no earlier reference slot. -/
theorem refSlot_mono (h : t ≤ t') (hf : s.frameAt t = .ok f) (hf' : s.frameAt t' = .ok f') :
    f.refSlot ≤ f'.refSlot := by
  rw [UInt64.le_iff_toNat_le, toNat_refSlot hf, toNat_refSlot hf']
  exact Nat.sub_le_sub_right (Nat.mul_le_mul_right _ (startAt_mono h)) _

theorem isActive_mono (h : t ≤ t') (ht : s.isActive t = true) : s.isActive t' = true := by
  simp only [isActive, decide_eq_true_eq] at ht ⊢
  exact UInt64.le_trans ht (TimeGrid.epochAt_mono h)

theorem exists_frameAt (h : s.isActive t = true) : ∃ f, s.frameAt t = .ok f :=
  ⟨_, frameAt_eq_ok.mpr ⟨h, rfl⟩⟩

/-! ### Changes of a schedule -/

/-- The initial epoch of a new schedule is the last one. -/
theorem dormant_eq_ok {g : TimeGrid} {epochs slots : Word} : dormant g epochs slots = .ok s ↔
    g.validate = .ok () ∧ checkLengths g epochs slots = .ok () ∧
      (⟨g, ⟨g.farFutureEpoch, epochs, slots⟩⟩ : Schedule) = s := by
  simp only [dormant, bind_eq_ok, pure_eq_ok, mapError_eq_ok]
  constructor
  · rintro ⟨_, hgrid, _, hlengths, rfl⟩
    exact ⟨hgrid, hlengths, rfl⟩
  · rintro ⟨hgrid, hlengths, rfl⟩
    exact ⟨(), hgrid, (), hlengths, rfl⟩

theorem setInitialEpoch_eq_ok {epoch : Word} {changed : Bool} :
    s.setInitialEpoch t epoch = .ok (s', changed) ↔
      epoch ≠ 0 ∧ s.isActive t = false ∧ { s with layout.initialEpoch := epoch } = s' ∧
        (epoch != s.layout.initialEpoch) = changed := by
  rw [setInitialEpoch, refusal_eq_ok (by simp), refusal_eq_ok (by simp)]
  simp [isActive]

theorem reconfigure_eq_ok {epochs slots : Word} {change : LayoutChange}
    (h : s.reconfigure t epochs slots = .ok (s', change)) :
    s.isActive t = true ∧ s'.grid = s.grid ∧ s'.layout.initialEpoch.toNat = s.startAt t := by
  simp only [reconfigure, bind_eq_ok, pure_eq_ok, Prod.mk.injEq] at h
  obtain ⟨-, -, index, hindex, rfl, -⟩ := h
  have hframe : s.frameAt t = .ok (s.frame index) := by rw [frameAt, hindex]; rfl
  obtain ⟨hactive, -⟩ := frameAt_eq_ok.mp hframe
  refine ⟨hactive, rfl, ?_⟩
  have hle : ¬ s.grid.epochAt t < s.layout.initialEpoch := by simpa [isActive] using hactive
  simp only [frameIndexAt, if_neg hle, Except.ok.injEq] at hindex
  rw [← hindex]
  exact toNat_startEpoch_of_frameAt hactive

theorem setFastLane_eq_ok {slots : Word} {changed : Bool}
    (h : s.setFastLane slots = .ok (s', changed)) :
    { s with layout.fastLaneSlots := slots } = s' := by
  simp only [setFastLane, bind_eq_ok, pure_eq_ok, Prod.mk.injEq] at h
  obtain ⟨-, -, rfl, -⟩ := h
  rfl

/-- What a change of the layout sets, and what it says has changed. -/
theorem change_of_reconfigure {epochs slots : Word} {change : LayoutChange}
    (h : s.reconfigure t epochs slots = .ok (s', change)) :
    ∃ epoch, { s with layout := ⟨epoch, epochs, slots⟩ } = s' ∧
      change.frames = (epoch != s.layout.initialEpoch || epochs != s.layout.epochsPerFrame) ∧
      change.fastLane = (slots != s.layout.fastLaneSlots) := by
  simp only [reconfigure, bind_eq_ok, pure_eq_ok, Prod.mk.injEq] at h
  obtain ⟨-, -, index, -, rfl, rfl⟩ := h
  exact ⟨s.startEpoch index, rfl, rfl, rfl⟩

theorem changed_of_setFastLane {slots : Word} {changed : Bool}
    (h : s.setFastLane slots = .ok (s', changed)) :
    (slots != s.layout.fastLaneSlots) = changed := by
  simp only [setFastLane, bind_eq_ok, pure_eq_ok, Prod.mk.injEq] at h
  obtain ⟨-, -, -, rfl⟩ := h
  rfl

/-- The frames do not depend on the length of the fast lane. -/
theorem frameAt_of_setFastLane {slots : Word} {changed : Bool}
    (h : s.setFastLane slots = .ok (s', changed)) : s'.frameAt t = s.frameAt t := by
  obtain rfl := setFastLane_eq_ok h
  rfl

/-- A change of the layout lowers neither the reference slot of its moment nor any later one. -/
theorem refSlot_le_of_reconfigure {epochs slots : Word} {change : LayoutChange}
    (h : s.reconfigure t epochs slots = .ok (s', change)) (hf : s.frameAt t = .ok f)
    (hf' : s'.frameAt t' = .ok f') : f.refSlot ≤ f'.refSlot := by
  obtain ⟨-, hgrid, hinitial⟩ := reconfigure_eq_ok h
  -- The new initial epoch is the first one of the current frame, and no frame starts before it.
  have hstart : s.startAt t ≤ s'.startAt t' := by
    rw [← hinitial]
    exact Nat.le_add_right _ _
  rw [UInt64.le_iff_toNat_le, toNat_refSlot hf, toNat_refSlot hf', hgrid]
  exact Nat.sub_le_sub_right (Nat.mul_le_mul_right _ hstart) _

theorem isActive_of_reconfigure {epochs slots : Word} {change : LayoutChange}
    (h : s.reconfigure t epochs slots = .ok (s', change)) : s'.isActive t = true := by
  obtain ⟨hactive, hgrid, hinitial⟩ := reconfigure_eq_ok h
  rw [isActive, decide_eq_true_iff, UInt64.le_iff_toNat_le, hgrid, hinitial]
  exact startAt_le hactive

end Schedule

end ReportQuorum
