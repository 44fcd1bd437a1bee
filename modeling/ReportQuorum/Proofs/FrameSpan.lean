import ReportQuorum.Proofs.Frames

/-!
# What a frame spans

A frame ends with its deadline slot, so a moment is past the deadline of its own frame only where
slots run out of words. Until the deadline has passed the frame stays the current one, and a
reference slot tells which frame of a schedule it belongs to.

## Main definitions

* `Schedule.Valid`: epochs have slots and frames have epochs

## Main results

* `Schedule.slotAt_le_deadlineSlot_iff`: no moment is past its frame's deadline but in the last slot
* `Schedule.frameAt_of_le_deadlineSlot`: a frame lasts until its deadline
* `Schedule.eq_of_refSlot_eq`: frames with the same reference slot are the same
-/

namespace ReportQuorum

namespace TimeGrid

/-- The first moment of a slot belongs to no later slot, though it may be cut off. -/
theorem slotAt_timeOfSlot_le (g : TimeGrid) (slot : Word) :
    g.slotAt (g.timeOfSlot slot) ≤ slot := by
  rw [UInt64.le_iff_toNat_le, toNat_slotAt, toNat_timeOfSlot]
  obtain hzero | hpos := Nat.eq_zero_or_pos g.secondsPerSlot.toNat
  · rw [hzero, Nat.div_zero]
    exact Nat.zero_le _
  · refine Nat.div_le_of_le_mul ?_
    rw [Nat.mul_comm]
    omega

end TimeGrid

namespace Schedule

variable {s s' : Schedule} {t t' : Word} {f f' : Frame}

/-- Epochs have slots, and frames have epochs. -/
structure Valid (s : Schedule) : Prop where
  slots : 0 < s.grid.slotsPerEpoch.toNat
  epochs : 0 < s.layout.epochsPerFrame.toNat

/-! ### Slots of a frame -/

/-- The number of the frame of a moment, counted from the initial epoch. -/
def ordinalAt (s : Schedule) (t : Word) : Nat :=
  ((s.grid.epochAt t).toNat - s.layout.initialEpoch.toNat) / s.layout.epochsPerFrame.toNat

theorem startAt_eq (s : Schedule) (t : Word) : s.startAt t =
    s.layout.initialEpoch.toNat + s.ordinalAt t * s.layout.epochsPerFrame.toNat := rfl

theorem epochAt_lt (h : s.Valid) :
    (s.grid.epochAt t).toNat < s.startAt t + s.layout.epochsPerFrame.toNat := by
  have := Nat.lt_div_mul_add (a := (s.grid.epochAt t).toNat - s.layout.initialEpoch.toNat) h.epochs
  rw [startAt]
  omega

/-- A moment is before the first slot of the next frame. -/
theorem slotAt_lt (h : s.Valid) : (s.grid.slotAt t).toNat <
    (s.startAt t + s.layout.epochsPerFrame.toNat) * s.grid.slotsPerEpoch.toNat := by
  rw [← Nat.div_lt_iff_lt_mul h.slots, ← TimeGrid.toNat_epochAt]
  exact epochAt_lt h

/-- The deadline slot is the last one before the next frame, or the last but one of all. -/
theorem toNat_deadlineSlot (h : s.frameAt t = .ok f) : f.deadlineSlot.toNat =
    min ((s.startAt t + s.layout.epochsPerFrame.toNat) * s.grid.slotsPerEpoch.toNat)
      (UInt64.size - 1) - 1 := by
  obtain ⟨hactive, rfl⟩ := frameAt_eq_ok.mp h
  have hstart := startAt_mul_le hactive
  have := (s.grid.slotAt t).toNat_lt_size
  rw [frame, Word.toNat_subSat, Word.toNat_addSat, slotsPerFrame, Word.toNat_mulSat,
    TimeGrid.firstSlot, Word.toNat_mulSat, toNat_startEpoch_of_frameAt hactive, Nat.add_mul]
  simp only [UInt64.reduceToNat]
  omega

/-- Only in the last slot of all has the deadline of the current frame passed. -/
theorem slotAt_le_deadlineSlot_iff (h : s.Valid) (hf : s.frameAt t = .ok f) :
    s.grid.slotAt t ≤ f.deadlineSlot ↔ s.grid.slotAt t < Word.last := by
  have := slotAt_lt (t := t) h
  have := (s.grid.slotAt t).toNat_lt_size
  rw [UInt64.le_iff_toNat_le, UInt64.lt_iff_toNat_lt, toNat_deadlineSlot hf, Word.toNat_last]
  rw [UInt64.size] at *
  omega

theorem deadlineSlot_lt_last (hf : s.frameAt t = .ok f) : f.deadlineSlot < Word.last := by
  rw [UInt64.lt_iff_toNat_lt, toNat_deadlineSlot hf, Word.toNat_last, UInt64.size]
  omega

/-! ### Moments of the same frame -/

/-- Moments of the same number are in the same frame. -/
theorem frameAt_congr (hactive : s.isActive t = true) (hactive' : s.isActive t' = true)
    (h : s.ordinalAt t' = s.ordinalAt t) : s.frameAt t' = s.frameAt t := by
  have hle : s.layout.initialEpoch ≤ s.grid.epochAt t := by simpa [isActive] using hactive
  have hle' : s.layout.initialEpoch ≤ s.grid.epochAt t' := by simpa [isActive] using hactive'
  obtain ⟨f, hf⟩ := exists_frameAt hactive
  rw [hf]
  refine frameAt_eq_ok.mpr ⟨hactive', ?_⟩
  rw [← (frameAt_eq_ok.mp hf).2]
  congr 1
  rw [← UInt64.toNat_inj, UInt64.toNat_div, UInt64.toNat_div, UInt64.toNat_sub_of_le _ _ hle,
    UInt64.toNat_sub_of_le _ _ hle']
  exact h

/-- A frame stays the current one until its deadline slot has passed. -/
theorem frameAt_of_le_deadlineSlot (h : s.Valid) (hf : s.frameAt t = .ok f) (ht : t ≤ t')
    (htimely : s.grid.slotAt t' ≤ f.deadlineSlot) : s.frameAt t' = .ok f := by
  have hactive := (frameAt_eq_ok.mp hf).1
  rw [← hf]
  refine frameAt_congr hactive (isActive_mono ht hactive) ?_
  have hbefore : (s.grid.epochAt t').toNat < s.startAt t + s.layout.epochsPerFrame.toNat := by
    rw [TimeGrid.toNat_epochAt, Nat.div_lt_iff_lt_mul h.slots]
    have hpos : 0 < (s.startAt t + s.layout.epochsPerFrame.toNat) * s.grid.slotsPerEpoch.toNat :=
      Nat.zero_lt_of_lt (slotAt_lt (t := t) h)
    rw [UInt64.le_iff_toNat_le, toNat_deadlineSlot hf] at htimely
    omega
  have hmono := UInt64.le_iff_toNat_le.mp (TimeGrid.epochAt_mono (g := s.grid) ht)
  have hstart := startAt_le hactive
  rw [startAt_eq] at hbefore hstart
  -- Both epochs lie between the starts of the frame and of the next one.
  refine Nat.div_eq_of_lt_le ?_ ?_
  · omega
  · rw [Nat.succ_mul]
    omega

/-- A reference slot tells its frame. Only the slots before all others share one. -/
theorem eq_of_refSlot_eq (h : s.Valid) (hf : s.frameAt t = .ok f) (hf' : s.frameAt t' = .ok f')
    (hslot : f'.refSlot = f.refSlot) (hpos : 0 < f.refSlot) : f' = f := by
  have hactive := (frameAt_eq_ok.mp hf).1
  have hactive' := (frameAt_eq_ok.mp hf').1
  have hstart : s.startAt t' * s.grid.slotsPerEpoch.toNat =
      s.startAt t * s.grid.slotsPerEpoch.toNat := by
    have heq := congrArg UInt64.toNat hslot
    rw [UInt64.lt_iff_toNat_lt, toNat_refSlot hf, UInt64.toNat_zero] at hpos
    rw [toNat_refSlot hf, toNat_refSlot hf'] at heq
    omega
  have hordinal : s.ordinalAt t' = s.ordinalAt t := by
    have hsame := Nat.eq_of_mul_eq_mul_right h.slots hstart
    rw [startAt_eq, startAt_eq] at hsame
    exact Nat.eq_of_mul_eq_mul_right h.epochs (Nat.add_left_cancel hsame)
  have hframe := frameAt_congr hactive hactive' hordinal
  rw [hf, hf'] at hframe
  exact Except.ok.inj hframe

/-! ### Changes of a schedule -/

/-- Frames have epochs, and the fast lane is no longer than a frame as far as that fits a word. -/
theorem checkLengths_eq_ok {g : TimeGrid} {epochs slots : Word} {u : Unit} :
    checkLengths g epochs slots = .ok u ↔ 0 < epochs ∧
      slots.toNat ≤ min (epochs.toNat * g.slotsPerEpoch.toNat) (UInt64.size - 1) := by
  rw [checkLengths, refusal_eq_ok (by simp), refusal_eq_ok (by simp), UInt64.not_lt,
    UInt64.le_iff_toNat_le, Word.toNat_mulSat]
  simp [UInt64.pos_iff_ne_zero]

theorem valid_of_checkLengths {g : TimeGrid} {epochs slots : Word} {u : Unit}
    (h : checkLengths g epochs slots = .ok u) : 0 < epochs.toNat :=
  UInt64.lt_iff_toNat_lt.mp (checkLengths_eq_ok.mp h).1

/-- A new schedule is on a grid that can be used. -/
theorem valid_of_dormant {g : TimeGrid} {epochs slots : Word}
    (h : dormant g epochs slots = .ok s) : s.Valid := by
  obtain ⟨hgrid, hlengths, rfl⟩ := dormant_eq_ok.mp h
  have hslots := (TimeGrid.validate_eq_ok.mp hgrid).1
  exact ⟨UInt64.lt_iff_toNat_lt.mp hslots, valid_of_checkLengths hlengths⟩

theorem Valid.reconfigure {epochs slots : Word} {change : LayoutChange} (h : s.Valid)
    (hs : s.reconfigure t epochs slots = .ok (s', change)) : s'.Valid := by
  simp only [Schedule.reconfigure, bind_eq_ok, pure_eq_ok, Prod.mk.injEq] at hs
  obtain ⟨_, hlengths, _, -, rfl, -⟩ := hs
  exact ⟨h.slots, valid_of_checkLengths hlengths⟩

theorem Valid.setInitialEpoch {epoch : Word} {changed : Bool} (h : s.Valid)
    (hs : s.setInitialEpoch t epoch = .ok (s', changed)) : s'.Valid := by
  obtain ⟨-, -, rfl, -⟩ := setInitialEpoch_eq_ok.mp hs
  exact ⟨h.slots, h.epochs⟩

theorem Valid.setFastLane {slots : Word} {changed : Bool} (h : s.Valid)
    (hs : s.setFastLane slots = .ok (s', changed)) : s'.Valid := by
  obtain rfl := setFastLane_eq_ok hs
  exact ⟨h.slots, h.epochs⟩

end Schedule

end ReportQuorum
