import ReportQuorum.Proofs.FrameTiling

/-!
# Changing the layout of frames

A change of the layout counts frames of the new length from the first epoch of the current frame.
The frame that is current afterwards begins a whole number of new frames later, which is its index;
if frames do not get shorter, it begins where the old one did. The change looks at everything before
it writes anything, so that it leaves no trace if it is refused.

## Main definitions

* `Schedule.replanned`: the schedule after a change of the layout
* `Schedule.changeTo`: what differs between two layouts
* `Schedule.replan`: the change made in place

## Main results

* `Schedule.reconfigure_eq_ok_iff`: when a change is accepted, and what it makes
* `Schedule.refSlot_of_replanned`: how far the reference slot moves
* `Schedule.frame_never_moves_back`: what a change does to the current frame and to later ones
-/

namespace ReportQuorum.Schedule

variable {s s' : Schedule} {t epochs slots : Word} {change : LayoutChange} {f f' : Frame}

/-! ### The schedule after a change -/

/-- The schedule in which frames are counted from the first epoch of the current frame. -/
def replanned (s : Schedule) (t epochs slots : Word) : Schedule :=
  { s with
    layout :=
      { initialEpoch :=
          s.startEpoch ((s.grid.epochAt t - s.layout.initialEpoch) / s.layout.epochsPerFrame)
        epochsPerFrame := epochs
        fastLaneSlots := slots } }

/-- What differs between the layouts of two schedules. -/
def changeTo (s s' : Schedule) : LayoutChange where
  frames := s'.layout.initialEpoch != s.layout.initialEpoch ||
    s'.layout.epochsPerFrame != s.layout.epochsPerFrame
  fastLane := s'.layout.fastLaneSlots != s.layout.fastLaneSlots

@[simp] theorem changeTo_self (s : Schedule) : s.changeTo s = ⟨false, false⟩ := by
  simp [changeTo]

/-- A change is accepted exactly if the new lengths fit each other and frames have begun. -/
theorem reconfigure_eq_ok_iff : s.reconfigure t epochs slots = .ok (s', change) ↔
    checkLengths s.grid epochs slots = .ok () ∧ s.isActive t = true ∧
      s.replanned t epochs slots = s' ∧ s.changeTo s' = change := by
  simp only [reconfigure, bind_eq_ok, pure_eq_ok, Prod.mk.injEq]
  constructor
  · rintro ⟨_, hlengths, index, hindex, rfl, rfl⟩
    have hf : s.frameAt t = .ok (s.frame index) := by rw [frameAt, hindex]; rfl
    obtain ⟨hactive, hframe⟩ := frameAt_eq_ok.mp hf
    have hsame : (s.grid.epochAt t - s.layout.initialEpoch) / s.layout.epochsPerFrame = index :=
      congrArg Frame.index hframe
    exact ⟨hlengths, hactive, by rw [replanned, hsame], rfl⟩
  · rintro ⟨hlengths, hactive, rfl, rfl⟩
    obtain ⟨f, hf⟩ := exists_frameAt hactive
    have hindex := frameIndexAt_of_frameAt hf
    rw [← (frameAt_eq_ok.mp hf).2] at hindex
    exact ⟨(), hlengths, _, hindex, rfl, rfl⟩

theorem isActive_replanned (h : s.isActive t = true) (epochs slots : Word) :
    (s.replanned t epochs slots).isActive t = true := by
  rw [isActive, decide_eq_true_iff, UInt64.le_iff_toNat_le]
  exact (toNat_startEpoch_of_frameAt h).trans_le (startAt_le h)

/-- New frames are numbered from the start of the old one. -/
theorem ordinalAt_replanned (h : s.isActive t = true) (epochs slots : Word) :
    (s.replanned t epochs slots).ordinalAt t =
      ((s.grid.epochAt t).toNat - s.startAt t) / epochs.toNat := by
  rw [← toNat_startEpoch_of_frameAt h]
  rfl

theorem startAt_replanned (h : s.isActive t = true) (epochs slots : Word) :
    (s.replanned t epochs slots).startAt t =
      s.startAt t + (s.replanned t epochs slots).ordinalAt t * epochs.toNat := by
  rw [startAt_eq, ← toNat_startEpoch_of_frameAt h]
  rfl

/-- If frames do not get shorter, the current frame is the first one of the new layout. -/
theorem index_eq_zero_of_replanned (h : s.Valid) (hlonger : s.layout.epochsPerFrame ≤ epochs)
    (hactive : s.isActive t = true) (hf' : (s.replanned t epochs slots).frameAt t = .ok f') :
    f'.index = 0 := by
  have hepoch := epochAt_lt (t := t) h
  have hpos := h.epochs
  rw [UInt64.le_iff_toNat_le] at hlonger
  rw [← UInt64.toNat_inj, toNat_index hf', ordinalAt_replanned hactive]
  exact Nat.div_eq_of_lt (by omega)

/-- The reference slot moves on by as many new frames as the new index says. -/
theorem refSlot_of_replanned (hslots : 0 < s.grid.slotsPerEpoch)
    (hinitial : 1 ≤ s.layout.initialEpoch) (hf : s.frameAt t = .ok f)
    (hf' : (s.replanned t epochs slots).frameAt t = .ok f') : f'.refSlot.toNat =
      f.refSlot.toNat + f'.index.toNat * (epochs.toNat * s.grid.slotsPerEpoch.toNat) := by
  have hactive := (frameAt_eq_ok.mp hf).1
  -- No reference slot is cut off at zero.
  have hpos : 0 < s.startAt t * s.grid.slotsPerEpoch.toNat :=
    Nat.mul_pos (Nat.add_pos_left (UInt64.le_iff_toNat_le.mp hinitial) _)
      (UInt64.lt_iff_toNat_lt.mp hslots)
  rw [toNat_refSlot hf', toNat_refSlot hf, toNat_index hf', startAt_replanned hactive,
    ← Nat.mul_assoc]
  change (_ + _) * s.grid.slotsPerEpoch.toNat - 1 = _
  rw [Nat.add_mul]
  omega

/-- If frames do not get shorter, the current frame does not end earlier. -/
theorem deadlineSlot_le_of_replanned (hlonger : s.layout.epochsPerFrame ≤ epochs)
    (hf : s.frameAt t = .ok f) (hf' : (s.replanned t epochs slots).frameAt t = .ok f') :
    f.deadlineSlot ≤ f'.deadlineSlot := by
  have hstart := startAt_replanned (frameAt_eq_ok.mp hf).1 epochs slots
  rw [UInt64.le_iff_toNat_le] at hlonger
  rw [UInt64.le_iff_toNat_le, toNat_deadlineSlot hf, toNat_deadlineSlot hf']
  have hstop : (s.startAt t + s.layout.epochsPerFrame.toNat) * s.grid.slotsPerEpoch.toNat ≤
      ((s.replanned t epochs slots).startAt t + epochs.toNat) * s.grid.slotsPerEpoch.toNat :=
    Nat.mul_le_mul_right _ (by omega)
  change _ ≤ min ((_ + epochs.toNat) * s.grid.slotsPerEpoch.toNat) _ - 1
  omega

/-! ### The change in place -/

/-- Changes the lengths of frames and fast lane in place. -/
def replan (t epochs slots : Word) : EStateM Error Schedule LayoutChange := do
  let s ← get
  MonadExcept.ofExcept (checkLengths s.grid epochs slots)
  let index ← MonadExcept.ofExcept (s.frameIndexAt t)
  modify ({ · with layout := ⟨s.startEpoch index, epochs, slots⟩ })
  return s.changeTo (← get)

/-- The change in place makes the schedule that the change gives, and nothing if it is refused. -/
theorem run_replan (s : Schedule) : (replan t epochs slots).run s =
    match s.reconfigure t epochs slots with
    | .ok (s', change) => .ok change s'
    | .error err => .error err s := by
  have hread : (replan t epochs slots).run s = EStateM.run (do
      MonadExcept.ofExcept (checkLengths s.grid epochs slots)
      let index ← MonadExcept.ofExcept (s.frameIndexAt t)
      modify ({ · with layout := ⟨s.startEpoch index, epochs, slots⟩ })
      return s.changeTo (← get)) s := rfl
  rw [hread, reconfigure]
  cases checkLengths s.grid epochs slots with
  | error err => rfl
  | ok u =>
    cases s.frameIndexAt t with
    | error err => rfl
    | ok index => rfl

/-- A change of the layout that is accepted does not move the current frame back. Its reference slot
moves on by a whole number of new frames, its new index, and by none if frames do not get shorter;
then its deadline slot does not come earlier. From then on there is always a current frame, and its
reference slot does not come before the old one. The new fast lane is no longer than a new frame.
Made in place, the change makes the same schedule, and if it is refused it leaves the old one. -/
theorem frame_never_moves_back (s : Schedule) (hgrid : s.grid.validate = .ok ())
    (hepochs : 1 ≤ s.layout.epochsPerFrame) (hinitial : 1 ≤ s.layout.initialEpoch)
    (t epochs slots : Word) :
    (∀ s' change, s.reconfigure t epochs slots = .ok (s', change) →
      ∃ f f', s.frameAt t = .ok f ∧ s'.frameAt t = .ok f' ∧
        f'.refSlot.toNat =
          f.refSlot.toNat + f'.index.toNat * (epochs.toNat * s.grid.slotsPerEpoch.toNat) ∧
        (s.layout.epochsPerFrame ≤ epochs → f'.index = 0 ∧ f.deadlineSlot ≤ f'.deadlineSlot) ∧
        (∀ t', t ≤ t' → s'.isActive t' = true ∧
          ∃ later, s'.frameAt t' = .ok later ∧ f.refSlot ≤ later.refSlot) ∧
        s'.layout.fastLaneSlots.toNat ≤
          min (epochs.toNat * s.grid.slotsPerEpoch.toNat) (UInt64.size - 1)) ∧
    (replan t epochs slots).run s = match s.reconfigure t epochs slots with
      | .ok (s', change) => .ok change s'
      | .error err => .error err s := by
  have hvalid := valid_of_validate hgrid hepochs
  refine ⟨?_, run_replan s⟩
  intro s' change hchange
  obtain ⟨hlengths, hactive, rfl, -⟩ := reconfigure_eq_ok_iff.mp hchange
  have hactive' := isActive_replanned hactive epochs slots
  obtain ⟨f, hf⟩ := exists_frameAt hactive
  obtain ⟨f', hf'⟩ := exists_frameAt hactive'
  refine ⟨f, f', hf, hf', ?_, fun hlonger => ⟨?_, ?_⟩, fun t' ht => ?_, ?_⟩
  · exact refSlot_of_replanned (TimeGrid.validate_eq_ok.mp hgrid).1 hinitial hf hf'
  · exact index_eq_zero_of_replanned hvalid hlonger hactive hf'
  · exact deadlineSlot_le_of_replanned hlonger hf hf'
  · have hlater := isActive_mono ht hactive'
    obtain ⟨later, hat⟩ := exists_frameAt hlater
    exact ⟨hlater, later, hat, refSlot_le_of_reconfigure hchange hf hat⟩
  · exact (checkLengths_eq_ok.mp hlengths).2

/-- In the last epoch of the frame about slot 191 frames are cut from five epochs to four, and the
frame about slot 319 is current at once. A fast lane that is longer than the new frame is
refused. -/
theorem moves_on_by_one_frame :
    let s : Schedule := ⟨⟨32, 12, 100⟩, ⟨1, 5, 0⟩⟩
    s.grid.validate = .ok () ∧ 1 ≤ s.layout.epochsPerFrame ∧ 1 ≤ s.layout.initialEpoch ∧
      s.frameAt 3940 = .ok ⟨1, 191, 351⟩ ∧
      (∃ s' change f', s.reconfigure 3940 4 128 = .ok (s', change) ∧
        (replan 3940 4 128).run s = .ok change s' ∧
        s'.frameAt 3940 = .ok f' ∧ f'.index = 1 ∧ f'.refSlot.toNat = 191 + 4 * 32 ∧
        ∀ t', 3940 ≤ t' → s'.isActive t' = true) ∧
      ∃ err, (replan 3940 4 129).run s = .error err s := by
  intro s
  have hgrid : s.grid.validate = .ok () := rfl
  have hlayout : 1 ≤ s.layout.epochsPerFrame ∧ 1 ≤ s.layout.initialEpoch := by decide
  have hold : s.frameAt 3940 = .ok ⟨1, 191, 351⟩ := toOption_eq_some.mp (by decide +kernel)
  have hnew : Schedule.frameAt ⟨s.grid, ⟨6, 4, 128⟩⟩ 3940 = .ok ⟨1, 319, 447⟩ :=
    toOption_eq_some.mp (by decide +kernel)
  have haccepted : s.reconfigure 3940 4 128 = .ok (⟨s.grid, ⟨6, 4, 128⟩⟩, ⟨true, true⟩) :=
    toOption_eq_some.mp (by decide +kernel)
  have hrefused : s.reconfigure 3940 4 129 = .error .fastLaneTooLong := by decide +kernel
  obtain ⟨hkept, hrun⟩ := frame_never_moves_back s hgrid hlayout.1 hlayout.2 3940 4 128
  obtain ⟨-, hrun'⟩ := frame_never_moves_back s hgrid hlayout.1 hlayout.2 3940 4 129
  rw [haccepted] at hrun
  rw [hrefused] at hrun'
  obtain ⟨f, f', hf, hf', hmoved, -, hlater, -⟩ := hkept _ _ haccepted
  cases hold.symm.trans hf
  cases hnew.symm.trans hf'
  exact ⟨hgrid, hlayout.1, hlayout.2, hold, ⟨_, _, _, haccepted, hrun, hnew, rfl, hmoved,
    fun t' ht => (hlater t' ht).1⟩, _, hrun'⟩

end ReportQuorum.Schedule
