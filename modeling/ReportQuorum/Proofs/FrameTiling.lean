import Mathlib.Order.Monotone.Basic
import ReportQuorum.Proofs.FrameSpan

/-!
# Frames tile time

From the initial epoch on frames follow each other without a gap and without overlap: a frame begins
right after its reference slot, and it ends with the reference slot of the next one. This is exact
although slots are words. Only the last frame may be too long for them; it is then cut off right
before the last slot of all, and that slot is the only one past the deadline of its own frame.

## Main definitions

* `Schedule.firstSlotOf`: the first slot of a frame in exact arithmetic

## Main results

* `Schedule.toNat_index`: the index of a frame is its number
* `Schedule.firstSlotOf_le_slotAt`, `Schedule.slotAt_lt_firstSlotOf`: a moment is in its frame
* `Schedule.frames_tile_time`: where frames begin and end
-/

namespace ReportQuorum.Schedule

variable {s : Schedule} {t t' : Word} {f f' : Frame}

theorem valid_of_validate (hgrid : s.grid.validate = .ok ())
    (hepochs : 1 ≤ s.layout.epochsPerFrame) : s.Valid :=
  ⟨UInt64.lt_iff_toNat_lt.mp (TimeGrid.validate_eq_ok.mp hgrid).1,
    UInt64.le_iff_toNat_le.mp hepochs⟩

/-! ### The numbers of frames -/

/-- The first slot of the frame with a number, in exact arithmetic. -/
def firstSlotOf (s : Schedule) (n : Nat) : Nat :=
  (s.layout.initialEpoch.toNat + n * s.layout.epochsPerFrame.toNat) * s.grid.slotsPerEpoch.toNat

theorem firstSlotOf_succ (s : Schedule) (n : Nat) : s.firstSlotOf (n + 1) =
    s.firstSlotOf n + s.layout.epochsPerFrame.toNat * s.grid.slotsPerEpoch.toNat := by
  rw [firstSlotOf, firstSlotOf, Nat.succ_mul, ← Nat.add_assoc, Nat.add_mul]

theorem firstSlotOf_strictMono (h : s.Valid) : StrictMono s.firstSlotOf := by
  refine strictMono_nat_of_lt_succ fun n => ?_
  rw [firstSlotOf_succ]
  exact Nat.lt_add_of_pos_right (Nat.mul_pos h.epochs h.slots)

/-- Slots come before the first frame if epochs do. -/
theorem firstSlotOf_pos (h : s.Valid) (hinitial : 1 ≤ s.layout.initialEpoch) (n : Nat) :
    0 < s.firstSlotOf n :=
  Nat.mul_pos (Nat.add_pos_left (UInt64.le_iff_toNat_le.mp hinitial) _) h.slots

theorem ordinalAt_mono (h : t ≤ t') : s.ordinalAt t ≤ s.ordinalAt t' :=
  Nat.div_le_div_right
    (Nat.sub_le_sub_right (UInt64.le_iff_toNat_le.mp (TimeGrid.epochAt_mono h)) _)

/-- A moment is not before the first slot of its frame. -/
theorem firstSlotOf_le_slotAt (h : s.isActive t = true) :
    s.firstSlotOf (s.ordinalAt t) ≤ (s.grid.slotAt t).toNat :=
  startAt_mul_le h

/-- A moment is before the first slot of the next frame. -/
theorem slotAt_lt_firstSlotOf (h : s.Valid) :
    (s.grid.slotAt t).toNat < s.firstSlotOf (s.ordinalAt t + 1) := by
  have hlt := slotAt_lt (t := t) h
  rwa [Nat.add_mul, startAt_eq, ← firstSlotOf, ← firstSlotOf_succ] at hlt

/-! ### The frame of a moment -/

/-- A frame is the one that its index names. -/
theorem frame_index (h : s.frameAt t = .ok f) : s.frame f.index = f := by
  obtain ⟨-, rfl⟩ := frameAt_eq_ok.mp h
  rfl

theorem frameIndexAt_of_frameAt (h : s.frameAt t = .ok f) : s.frameIndexAt t = .ok f.index := by
  rw [frameAt, map_eq_ok] at h
  obtain ⟨index, hindex, rfl⟩ := h
  exact hindex

theorem toNat_index (h : s.frameAt t = .ok f) : f.index.toNat = s.ordinalAt t := by
  obtain ⟨hactive, rfl⟩ := frameAt_eq_ok.mp h
  have hle : s.layout.initialEpoch ≤ s.grid.epochAt t := by simpa [isActive] using hactive
  rw [frame, UInt64.toNat_div, UInt64.toNat_sub_of_le _ _ hle, ordinalAt]

theorem toNat_refSlot_eq (h : s.frameAt t = .ok f) :
    f.refSlot.toNat = s.firstSlotOf f.index.toNat - 1 := by
  rw [toNat_refSlot h, toNat_index h, startAt_eq, firstSlotOf]

theorem toNat_deadlineSlot_eq (h : s.frameAt t = .ok f) :
    f.deadlineSlot.toNat = min (s.firstSlotOf (f.index.toNat + 1)) (UInt64.size - 1) - 1 := by
  rw [toNat_deadlineSlot h, Nat.add_mul, startAt_eq, ← toNat_index h, ← firstSlotOf,
    ← firstSlotOf_succ]

/-- Frames with the same reference slot have the same index if epochs come before the first one. -/
theorem refSlot_eq_iff (h : s.Valid) (hinitial : 1 ≤ s.layout.initialEpoch)
    (hf : s.frameAt t = .ok f) (hf' : s.frameAt t' = .ok f') :
    f.refSlot = f'.refSlot ↔ f.index = f'.index := by
  have hpos := firstSlotOf_pos h hinitial f.index.toNat
  have hpos' := firstSlotOf_pos h hinitial f'.index.toNat
  rw [← UInt64.toNat_inj, ← UInt64.toNat_inj, toNat_refSlot_eq hf, toNat_refSlot_eq hf']
  constructor
  · intro hsame
    refine (firstSlotOf_strictMono h).injective ?_
    omega
  · intro hsame
    rw [hsame]

/-- The deadline slot of a frame is the reference slot of the next one, if there is a next one. -/
theorem refSlot_eq_deadlineSlot (hf : s.frameAt t = .ok f) (hf' : s.frameAt t' = .ok f')
    (hnext : f'.index.toNat = f.index.toNat + 1) : f'.refSlot = f.deadlineSlot := by
  -- The next frame has begun, so its first slot fits a word.
  have hbegun := firstSlotOf_le_slotAt (frameAt_eq_ok.mp hf').1
  rw [← toNat_index hf', hnext] at hbegun
  have := (s.grid.slotAt t').toNat_lt_size
  rw [← UInt64.toNat_inj, toNat_refSlot_eq hf', toNat_deadlineSlot_eq hf, hnext]
  omega

/-- Frames tile time from the initial epoch on, which is not epoch zero. A moment lies between the
exact first slots of its frame and of the next one; the reference slot is the slot before the first,
and the deadline slot is the last slot of the frame, or the last but one of all. So only in the last
slot of all the deadline of the current frame has passed; a reference slot tells the index of its
frame; neither falls back as time goes on; and the deadline slot of a frame is the reference slot of
the next one. -/
theorem frames_tile_time (s : Schedule) (hgrid : s.grid.validate = .ok ())
    (hepochs : 1 ≤ s.layout.epochsPerFrame) (hinitial : 1 ≤ s.layout.initialEpoch) :
    (∀ t, s.isActive t = true → ∃ f, s.frameIndexAt t = .ok f.index ∧ s.frameAt t = .ok f ∧
      let start := s.firstSlotOf f.index.toNat
      let stop := start + s.layout.epochsPerFrame.toNat * s.grid.slotsPerEpoch.toNat
      f.refSlot.toNat + 1 = start ∧
        start ≤ (s.grid.slotAt t).toNat ∧ (s.grid.slotAt t).toNat < stop ∧
        f.deadlineSlot.toNat = min stop (UInt64.size - 1) - 1 ∧
        (f.deadlineSlot < s.grid.slotAt t ↔ s.grid.slotAt t = Word.last)) ∧
    ∀ t t' f f', s.frameAt t = .ok f → s.frameAt t' = .ok f' →
      (f.refSlot = f'.refSlot ↔ f.index = f'.index) ∧
        (t ≤ t' → f.index ≤ f'.index ∧ f.refSlot ≤ f'.refSlot) ∧
        (f'.index.toNat = f.index.toNat + 1 → f'.refSlot = f.deadlineSlot) := by
  have hvalid := valid_of_validate hgrid hepochs
  refine ⟨fun t hactive => ?_, fun t t' f f' hf hf' => ⟨?_, fun ht => ⟨?_, ?_⟩, ?_⟩⟩
  · obtain ⟨f, hf⟩ := exists_frameAt hactive
    refine ⟨f, frameIndexAt_of_frameAt hf, hf, ?_⟩
    intro start stop
    have hstop : stop = s.firstSlotOf (f.index.toNat + 1) := (firstSlotOf_succ s _).symm
    have hindex := toNat_index hf
    refine ⟨?_, ?_, ?_, ?_, ?_⟩
    · rw [toNat_refSlot_eq hf]
      exact Nat.sub_add_cancel (firstSlotOf_pos hvalid hinitial _)
    · change s.firstSlotOf f.index.toNat ≤ _
      rw [hindex]
      exact firstSlotOf_le_slotAt hactive
    · rw [hstop, hindex]
      exact slotAt_lt_firstSlotOf hvalid
    · rw [hstop]
      exact toNat_deadlineSlot_eq hf
    · have htimely := slotAt_le_deadlineSlot_iff hvalid hf
      rw [← UInt64.not_le, htimely, UInt64.not_lt]
      exact ⟨fun hle => UInt64.le_antisymm (Word.le_last _) hle, fun heq => UInt64.le_of_eq heq.symm⟩
  · exact refSlot_eq_iff hvalid hinitial hf hf'
  · rw [UInt64.le_iff_toNat_le, toNat_index hf, toNat_index hf']
    exact ordinalAt_mono ht
  · exact refSlot_mono ht hf hf'
  · exact refSlot_eq_deadlineSlot hf hf'

/-- In slots of one second the second frame is about the deadline slot of the first one, and the last
moment of all is past the deadline of its frame, which is too long for words. -/
theorem tiles_to_last_slot :
    let s : Schedule := ⟨⟨32, 1, 0⟩, ⟨1, 225, 0⟩⟩
    s.grid.validate = .ok () ∧ 1 ≤ s.layout.epochsPerFrame ∧ 1 ≤ s.layout.initialEpoch ∧
      s.frameAt 32 = .ok ⟨0, 31, 7231⟩ ∧
      (∃ f', s.frameAt 7232 = .ok f' ∧ f'.index = 1 ∧ f'.refSlot = 7231) ∧
      s.isActive Word.last = true ∧
      ∃ f, s.frameAt Word.last = .ok f ∧ f.deadlineSlot < s.grid.slotAt Word.last ∧
        UInt64.size < s.firstSlotOf (f.index.toNat + 1) := by
  intro s
  have hgrid : s.grid.validate = .ok () := rfl
  have hlayout : 1 ≤ s.layout.epochsPerFrame ∧ 1 ≤ s.layout.initialEpoch := by decide
  have hframes : (s.frameAt 32).toOption = some ⟨0, 31, 7231⟩ ∧
      (s.frameAt 7232).toOption.any (fun f => decide (f.index = 1)) = true ∧
      s.isActive Word.last = true ∧ s.grid.slotAt Word.last = Word.last ∧
      UInt64.size < s.firstSlotOf (s.ordinalAt Word.last + 1) := by decide +kernel
  obtain ⟨hfirst, hsecond, hactive, hlast, hlong⟩ := hframes
  obtain ⟨f', hf', hindex⟩ := exists_of_any hsecond
  obtain ⟨htile, hpair⟩ := frames_tile_time s hgrid hlayout.1 hlayout.2
  rw [toOption_eq_some] at hfirst
  obtain ⟨f, -, hf, -, -, -, -, hpast⟩ := htile Word.last hactive
  refine ⟨hgrid, hlayout.1, hlayout.2, hfirst, ⟨f', hf', hindex, ?_⟩, hactive, f, hf, ?_, ?_⟩
  · exact (hpair 32 7232 _ f' hfirst hf').2.2 (by rw [hindex]; rfl)
  · exact hpast.mpr hlast
  · rw [toNat_index hf]
    exact hlong

end ReportQuorum.Schedule
