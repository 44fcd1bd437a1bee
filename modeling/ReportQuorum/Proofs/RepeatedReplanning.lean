import ReportQuorum.Proofs.Replanning
import ReportQuorum.Proofs.Upkeep
import ReportQuorum.Recorder

/-!
# The same change of the layout twice

A change of the layout counts frames from the first epoch of the frame that is current when it is
made. If the same change is made once more at the same moment, the current frame is one of the new
layout. If it is the first one, nothing is left to change. But if the first change made frames so
much shorter that the current one is a later one, the second counts from that one: the slots of the
frame stay, its index and with it the fast lane do not. After that nothing is left to change.

## Main definitions

* `Engine.replanned`: the engine after a change of the layout

## Main results

* `Schedule.replanned_self`, `Schedule.frameAt_replanned_self`: what a change to the lengths that are
  set already does
* `Engine.setFrameConfig_eq_ok`: when an engine accepts a change, and what it makes
* `Engine.setFrameConfig_twice`: what a repeated change does
* `Engine.moved_by_repetition`: a repeated change that changes something
-/

namespace ReportQuorum

namespace Schedule

variable {s : Schedule} {t epochs slots : Word} {f : Frame}

theorem initialEpoch_replanned (hf : s.frameAt t = .ok f) (epochs slots : Word) :
    (s.replanned t epochs slots).layout.initialEpoch = s.startEpoch f.index := by
  rw [← (frameAt_eq_ok.mp hf).2]
  rfl

theorem startEpoch_zero (s : Schedule) : s.startEpoch 0 = s.layout.initialEpoch := by
  have := s.layout.initialEpoch.toNat_lt_size
  rw [← UInt64.toNat_inj, startEpoch, Word.toNat_addSat, Word.toNat_mulSat, UInt64.toNat_zero,
    Nat.zero_mul]
  omega

/-- If the current frame is the first one, a change to the lengths that are set already changes
nothing. -/
theorem replanned_self (hf : s.frameAt t = .ok f) (hindex : f.index = 0) :
    s.replanned t s.layout.epochsPerFrame s.layout.fastLaneSlots = s := by
  have hinitial := initialEpoch_replanned hf s.layout.epochsPerFrame s.layout.fastLaneSlots
  rw [hindex, startEpoch_zero] at hinitial
  exact congrArg (fun epoch => { s with layout.initialEpoch := epoch }) hinitial

/-- Otherwise it moves the initial epoch on. -/
theorem initialEpoch_lt_replanned (h : s.Valid) (hf : s.frameAt t = .ok f) (hindex : f.index ≠ 0)
    (epochs slots : Word) :
    s.layout.initialEpoch < (s.replanned t epochs slots).layout.initialEpoch := by
  have hpos : 0 < s.ordinalAt t := by
    rw [← toNat_index hf]
    exact Nat.pos_of_ne_zero fun hzero => hindex (UInt64.toNat_inj.mp hzero)
  rw [UInt64.lt_iff_toNat_lt]
  calc s.layout.initialEpoch.toNat
      < s.layout.initialEpoch.toNat + s.ordinalAt t * s.layout.epochsPerFrame.toNat :=
        Nat.lt_add_of_pos_right (Nat.mul_pos hpos h.epochs)
    _ = _ := (toNat_startEpoch_of_frameAt (frameAt_eq_ok.mp hf).1).symm

/-- A change to the length of frames that is set already makes the current frame the first one. Its
slots stay. -/
theorem frameAt_replanned_self (h : s.Valid) (hf : s.frameAt t = .ok f) (slots : Word) :
    (s.replanned t s.layout.epochsPerFrame slots).frameAt t = .ok { f with index := 0 } := by
  have hactive := (frameAt_eq_ok.mp hf).1
  obtain ⟨f', hf'⟩ := exists_frameAt (isActive_replanned hactive s.layout.epochsPerFrame slots)
  have hindex := index_eq_zero_of_replanned h (UInt64.le_refl _) hactive hf'
  have hsame : (s.replanned t s.layout.epochsPerFrame slots).frame 0 =
      { s.frame f.index with index := 0 } := by
    simp only [frame, startEpoch_zero, initialEpoch_replanned hf]
    rfl
  rw [hf', ← frame_index hf', hindex, hsame, frame_index hf]

end Schedule

namespace Engine

variable {π ε : Type} {e e' : Engine π} {now epochs slots : Word} {caller : Address} {f : Frame}

/-- The schedules of the engines that there may be are valid. -/
theorem valid_after [ReportProcessor π ε] (h : e.schedule.Valid) (run : List (Word × Act π)) :
    (e.after run).schedule.Valid := by
  induction run generalizing e with
  | nil => exact h
  | cons act run ih =>
    obtain ⟨now, a⟩ := act
    refine ih ?_
    cases a with
    | call c => exact (e.performed now c).valid h
    | tend f => exact h
    | drain => exact h

/-! ### One change -/

/-- The engine after a change of the layout. Events tell what differs. -/
def replanned (e : Engine π) (now epochs slots : Word) : Engine π :=
  let s := e.schedule.replanned now epochs slots
  let change := e.schedule.changeTo s
  { e with schedule := s }
    |>.emitIf change.frames (frameConfigEvent s)
    |>.emitIf change.fastLane (.fastLaneConfigSet slots)

@[simp] theorem replanned_schedule : (e.replanned now epochs slots).schedule =
    e.schedule.replanned now epochs slots := by
  simp [replanned]

@[simp] theorem replanned_roles : (e.replanned now epochs slots).roles = e.roles := by
  simp [replanned]

/-- A change is accepted from a holder of the role once frames have begun, if the new lengths fit
each other. -/
theorem setFrameConfig_eq_ok :
    e.setFrameConfig (ε := ε) now caller epochs slots = ⟨.ok (), e'⟩ ↔
      e.roles.holds .manageFrameConfig caller = true ∧
        Schedule.checkLengths e.schedule.grid epochs slots = .ok () ∧
        e.schedule.isActive now = true ∧ e.replanned now epochs slots = e' := by
  simp only [setFrameConfig, Reply.ofExcept_eq_ok, bind_eq_ok, mapError_eq_ok, demand_eq_ok,
    Prod.exists, Schedule.reconfigure_eq_ok_iff, pure_eq_ok]
  constructor
  · rintro ⟨-, hrole, _, _, ⟨hlengths, hactive, rfl, rfl⟩, rfl⟩
    exact ⟨hrole, hlengths, hactive, rfl⟩
  · rintro ⟨hrole, hlengths, hactive, rfl⟩
    exact ⟨(), hrole, _, _, ⟨hlengths, hactive, rfl, rfl⟩, rfl⟩

/-- A change that leaves the schedule as it is leaves no event. -/
theorem replanned_eq_self (h : e.schedule.replanned now epochs slots = e.schedule) :
    e.replanned now epochs slots = e := by
  simp only [replanned, h, Schedule.changeTo_self]
  rfl

/-! ### The same change once more -/

/-- A change to the lengths that are set already makes the current frame the first one. If it is the
first one, nothing changes; else only the initial epoch does, and one event tells of it. -/
theorem replanned_lengths (h : e.schedule.Valid) (hf : e.currentFrame now = .ok f)
    (hepochs : e.schedule.layout.epochsPerFrame = epochs)
    (hslots : e.schedule.layout.fastLaneSlots = slots) :
    (f.index = 0 → e.replanned now epochs slots = e) ∧
      (f.index ≠ 0 → ∃ epoch, e.schedule.layout.initialEpoch < epoch ∧
        e.replanned now epochs slots =
          { e with schedule.layout.initialEpoch := epoch }.emit (.frameConfigSet epoch epochs)) := by
  subst hepochs hslots
  refine ⟨fun hindex => replanned_eq_self (Schedule.replanned_self hf hindex), fun hindex => ?_⟩
  have hlater := Schedule.initialEpoch_lt_replanned h hf hindex e.schedule.layout.epochsPerFrame
    e.schedule.layout.fastLaneSlots
  refine ⟨_, hlater, ?_⟩
  have hframes : e.schedule.changeTo (e.schedule.replanned now e.schedule.layout.epochsPerFrame
      e.schedule.layout.fastLaneSlots) = ⟨true, false⟩ := by
    have hne := bne_iff_ne.mpr (UInt64.ne_of_lt hlater).symm
    simp only [Schedule.changeTo, hne, Bool.true_or]
    exact congrArg _ (bne_self_eq_false _)
  simp only [replanned, hframes]
  rfl

/-- The layout after an accepted change can be relied on, and has the lengths asked for. -/
theorem layout_of_setFrameConfig (h : e.schedule.Valid)
    (hok : e.setFrameConfig (ε := ε) now caller epochs slots = ⟨.ok (), e'⟩) :
    e'.schedule.Valid ∧ e'.schedule.layout.epochsPerFrame = epochs ∧
      e'.schedule.layout.fastLaneSlots = slots := by
  obtain ⟨-, hlengths, -, rfl⟩ := setFrameConfig_eq_ok.mp hok
  rw [replanned_schedule]
  exact ⟨⟨h.slots, Schedule.valid_of_checkLengths hlengths⟩, rfl, rfl⟩

/-- What was accepted is accepted once more. -/
theorem setFrameConfig_again
    (hok : e.setFrameConfig (ε := ε) now caller epochs slots = ⟨.ok (), e'⟩) :
    e'.setFrameConfig (ε := ε) now caller epochs slots =
      ⟨.ok (), e'.replanned now epochs slots⟩ := by
  obtain ⟨hrole, hlengths, hactive, rfl⟩ := setFrameConfig_eq_ok.mp hok
  refine setFrameConfig_eq_ok.mpr ⟨?_, ?_, ?_, rfl⟩
  · rw [replanned_roles]
    exact hrole
  · rw [replanned_schedule]
    exact hlengths
  · rw [replanned_schedule]
    exact Schedule.isActive_replanned hactive epochs slots

/-- In every engine that there may be, a change of the layout that was accepted is accepted once
more at the same moment. The current frame then is the first one, and its slots are as they were. If
it was the first one after the first change, which is so unless frames got shorter, the second
change changes nothing and leaves no event. If it was a later one, the second change moves the
initial epoch on and leaves one event that tells so. A third change changes nothing. -/
theorem setFrameConfig_twice [ReportProcessor π ε] {setup : Setup} {p : π} {e₀ : Engine π}
    (hcreate : create setup p = .ok e₀) (run : List (Word × Act π)) {e₁ : Engine π}
    (hfirst : (e₀.after run).setFrameConfig (ε := ε) now caller epochs slots = ⟨.ok (), e₁⟩) :
    ∃ f e₂, e₁.currentFrame now = .ok f ∧
      e₁.setFrameConfig (ε := ε) now caller epochs slots = ⟨.ok (), e₂⟩ ∧
      e₂.currentFrame now = .ok { f with index := 0 } ∧
      (f.index = 0 → e₂ = e₁) ∧
      (f.index ≠ 0 → ∃ epoch, e₁.schedule.layout.initialEpoch < epoch ∧
        e₂ = { e₁ with schedule.layout.initialEpoch := epoch }.emit
          (.frameConfigSet epoch epochs)) ∧
      ((e₀.after run).schedule.layout.epochsPerFrame ≤ epochs → f.index = 0) ∧
      e₂.setFrameConfig (ε := ε) now caller epochs slots = ⟨.ok (), e₂⟩ := by
  have hvalid := valid_after (Schedule.valid_of_dormant (created_of_create hcreate).schedule) run
  generalize e₀.after run = e at hvalid hfirst ⊢
  have hsecond := setFrameConfig_again hfirst
  have hthird := setFrameConfig_again hsecond
  obtain ⟨hvalid₁, hepochs, hslots⟩ := layout_of_setFrameConfig hvalid hfirst
  obtain ⟨hvalid₂, hepochs₂, hslots₂⟩ := layout_of_setFrameConfig hvalid₁ hsecond
  obtain ⟨-, -, hactive, hmade⟩ := setFrameConfig_eq_ok.mp hfirst
  have hschedule : e.schedule.replanned now epochs slots = e₁.schedule := by
    rw [← hmade, replanned_schedule]
  obtain ⟨f, hf⟩ := Schedule.exists_frameAt
    (hschedule ▸ Schedule.isActive_replanned hactive epochs slots)
  have hf₂ : (e₁.replanned now epochs slots).currentFrame now = .ok { f with index := 0 } := by
    rw [currentFrame, replanned_schedule, ← hepochs]
    exact Schedule.frameAt_replanned_self hvalid₁ hf slots
  obtain ⟨hsame, hmoved⟩ := replanned_lengths hvalid₁ hf hepochs hslots
  refine ⟨f, _, hf, hsecond, hf₂, hsame, hmoved, fun hlonger => ?_, ?_⟩
  · rw [← hschedule] at hf
    exact Schedule.index_eq_zero_of_replanned hvalid hlonger hactive hf
  · -- The current frame is the first one now, so the third change finds nothing to do.
    rw [(replanned_lengths hvalid₂ hf₂ hepochs₂ hslots₂).1 rfl] at hthird
    exact hthird

/-- Frames of four epochs are cut to two in the fourth one. The current frame is the second of the new
layout, and the same change makes it the first; after that nothing changes any more. -/
theorem settled_by_second_change :
    let admin : Address := .ofLowByte 9
    let setup : Setup := ⟨.ofLowByte 8, ⟨32, 12, 100⟩, 4, 10, admin⟩
    let recorder : Recorder := { address := .ofLowByte 7, version := 1, processingSlot := 0 }
    let run : List (Word × Act Recorder) :=
      [(100, .call (.grantRole admin .manageFrameConfig admin)),
        (100, .call (.updateInitialEpoch admin 1))]
    ∃ e₀ e₁ f e₂, create setup recorder = .ok e₀ ∧
      (e₀.after run).setFrameConfig (ε := Recorder.Refusal) 1636 admin 2 10 = ⟨.ok (), e₁⟩ ∧
      e₁.currentFrame 1636 = .ok f ∧ f.index = 1 ∧
      e₁.setFrameConfig (ε := Recorder.Refusal) 1636 admin 2 10 = ⟨.ok (), e₂⟩ ∧
      e₁.schedule.layout.initialEpoch < e₂.schedule.layout.initialEpoch ∧
      e₂.currentFrame 1636 = .ok { f with index := 0 } ∧
      e₂.setFrameConfig (ε := Recorder.Refusal) 1636 admin 2 10 = ⟨.ok (), e₂⟩ := by
  intro admin setup recorder run
  have hrun : (create setup recorder).toOption.any (fun e₀ =>
      let first := (e₀.after run).setFrameConfig (ε := Recorder.Refusal) 1636 admin 2 10
      decide (first.result.toOption = some () ∧
        (first.state.currentFrame 1636).toOption.any (fun f => decide (f.index = 1)) = true)) =
      true := by
    decide +kernel
  obtain ⟨e₀, hmade, haccepted, hframe⟩ := exists_of_any hrun
  rw [toOption_eq_some] at haccepted
  cases hfirst : (e₀.after run).setFrameConfig (ε := Recorder.Refusal) 1636 admin 2 10 with
  | mk result e₁ =>
    rw [hfirst] at haccepted hframe
    subst haccepted
    obtain ⟨f₁, hf₁, hindex⟩ := exists_of_any hframe
    obtain ⟨f, e₂, hf, hsecond, hf₂, -, hmoved, -, hthird⟩ :=
      setFrameConfig_twice hmade run hfirst
    obtain rfl := Except.ok.inj (hf₁.symm.trans hf)
    obtain ⟨epoch, hlater, rfl⟩ := hmoved (by rw [hindex]; decide)
    exact ⟨e₀, e₁, f₁, _, hmade, hfirst, hf, hindex, hsecond, hlater, hf₂, hthird⟩

/-- Repeating a change may change something. In the fourth epoch of a frame of four epochs frames are
cut to two, twice at the same moment. The second change moves the initial epoch from the first to
the third epoch and leaves one event that tells so, and the third of three members loses its place
in the fast lane of the frame to the first one. -/
theorem moved_by_repetition :
    let admin : Address := .ofLowByte 9
    let member (i : UInt8) : Address := .ofLowByte i
    let setup : Setup := ⟨.ofLowByte 8, ⟨32, 12, 100⟩, 4, 10, admin⟩
    let recorder : Recorder := { address := .ofLowByte 7, version := 1, processingSlot := 0 }
    let run : List (Word × Act Recorder) :=
      [(100, .call (.grantRole admin .manageMembersAndQuorum admin)),
        (100, .call (.grantRole admin .manageFrameConfig admin)),
        (100, .call (.addMember admin (member 1) 2)), (100, .call (.addMember admin (member 2) 2)),
        (100, .call (.addMember admin (member 3) 2)), (100, .call (.updateInitialEpoch admin 1))]
    ∃ e₀, create setup recorder = .ok e₀ ∧
      let first := (e₀.after run).setFrameConfig (ε := Recorder.Refusal) 1636 admin 2 10
      let second := first.state.setFrameConfig (ε := Recorder.Refusal) 1636 admin 2 10
      first.result = .ok () ∧ second.result = .ok () ∧
        first.state.schedule.layout.initialEpoch = 1 ∧
        second.state.schedule.layout.initialEpoch = 3 ∧
        first.state.currentFrame 1636 = .ok ⟨1, 95, 159⟩ ∧
        second.state.currentFrame 1636 = .ok ⟨0, 95, 159⟩ ∧
        first.state.fastLaneMembers 1636 = .ok [member 2, member 3] ∧
        second.state.fastLaneMembers 1636 = .ok [member 1, member 2] ∧
        second.state.events = first.state.events ++ [.frameConfigSet 3 2] := by
  intro admin member setup recorder run
  have hrun : (create setup recorder).toOption.any (fun e₀ =>
      let first := (e₀.after run).setFrameConfig (ε := Recorder.Refusal) 1636 admin 2 10
      let second := first.state.setFrameConfig (ε := Recorder.Refusal) 1636 admin 2 10
      decide (
        first.result.toOption = some () ∧ second.result.toOption = some () ∧
          first.state.schedule.layout.initialEpoch = 1 ∧
          second.state.schedule.layout.initialEpoch = 3 ∧
          (first.state.currentFrame 1636).toOption = some ⟨1, 95, 159⟩ ∧
          (second.state.currentFrame 1636).toOption = some ⟨0, 95, 159⟩ ∧
          (first.state.fastLaneMembers 1636).toOption = some [member 2, member 3] ∧
          (second.state.fastLaneMembers 1636).toOption = some [member 1, member 2] ∧
          second.state.events = first.state.events ++ [.frameConfigSet 3 2])) = true := by
    decide +kernel
  obtain ⟨e₀, hmade, hrun⟩ := exists_of_any hrun
  simp only [toOption_eq_some] at hrun
  exact ⟨e₀, hmade, hrun⟩

end Engine

end ReportQuorum
