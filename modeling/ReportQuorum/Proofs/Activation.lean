import ReportQuorum.Engine.Query
import ReportQuorum.Proofs.Runs
import ReportQuorum.Recorder

/-!
# Frames that have begun go on

Before the initial epoch has come there is no frame, and the administrator may move that epoch to
and fro. Once it has come this ends for good. Time goes on, and the layout of frames may still be
changed as often as anybody likes; but each change makes the first epoch of the current frame the
initial one, so the initial epoch stays in the past and no reference slot comes back.

## Main definitions

* `Schedule.Onward`: frames go on from one schedule and moment to another

## Main results

* `Schedule.onward_of_le`, `Engine.Amends.onward`: time lets frames go on, and so does every change
* `Engine.onward_after`: frames go on throughout every run on a clock that does not go back
* `Engine.activation_irrevocable`: what holds ever after there has been a current frame
-/

namespace ReportQuorum

namespace Schedule

variable {s s' s'' : Schedule} {t t' t'' : Word} {epoch epochs slots : Word} {changed : Bool}
  {change : LayoutChange}

/-- Frames go on from one schedule and moment to another: once they have begun, the initial epoch is
not moved back, there is a current frame ever after, and its reference slot does not come before
that of the frame before. -/
structure Onward (s : Schedule) (t : Word) (s' : Schedule) (t' : Word) : Prop where
  initialEpoch : s.isActive t = true → s.layout.initialEpoch ≤ s'.layout.initialEpoch
  frame : ∀ {f}, s.frameAt t = .ok f → ∃ f', s'.frameAt t' = .ok f' ∧ f.refSlot ≤ f'.refSlot

theorem Onward.refl (s : Schedule) (t : Word) : s.Onward t s t :=
  ⟨fun _ => UInt64.le_refl _, fun hf => ⟨_, hf, UInt64.le_refl _⟩⟩

theorem Onward.isActive (h : s.Onward t s' t') (ht : s.isActive t = true) :
    s'.isActive t' = true := by
  obtain ⟨f, hf⟩ := exists_frameAt ht
  obtain ⟨f', hf', -⟩ := h.frame hf
  exact (frameAt_eq_ok.mp hf').1

theorem Onward.trans (h : s.Onward t s' t') (h' : s'.Onward t' s'' t'') : s.Onward t s'' t'' where
  initialEpoch ht := UInt64.le_trans (h.initialEpoch ht) (h'.initialEpoch (h.isActive ht))
  frame hf := by
    obtain ⟨f', hf', hle⟩ := h.frame hf
    obtain ⟨f'', hf'', hle'⟩ := h'.frame hf'
    exact ⟨f'', hf'', UInt64.le_trans hle hle'⟩

/-- Frames go on as time does. -/
theorem onward_of_le (h : t ≤ t') : s.Onward t s t' where
  initialEpoch _ := UInt64.le_refl _
  frame hf := by
    obtain ⟨f', hf'⟩ := exists_frameAt (isActive_mono h (frameAt_eq_ok.mp hf).1)
    exact ⟨f', hf', refSlot_mono h hf hf'⟩

/-- The initial epoch is moved only before frames have begun. -/
theorem onward_of_setInitialEpoch (h : s.setInitialEpoch t epoch = .ok (s', changed)) :
    s.Onward t s' t := by
  obtain ⟨-, hinactive, -⟩ := setInitialEpoch_eq_ok.mp h
  refine ⟨fun hactive => ?_, fun hf => ?_⟩
  · cases hinactive.symm.trans hactive
  · cases hinactive.symm.trans (frameAt_eq_ok.mp hf).1

/-- A change of the layout moves the initial epoch on to the current frame, which does not fall
back. -/
theorem onward_of_reconfigure (h : s.reconfigure t epochs slots = .ok (s', change)) :
    s.Onward t s' t where
  initialEpoch _ := by
    obtain ⟨-, -, hinitial⟩ := reconfigure_eq_ok h
    rw [UInt64.le_iff_toNat_le, hinitial, startAt]
    exact Nat.le_add_right _ _
  frame hf := by
    obtain ⟨f', hf'⟩ := exists_frameAt (isActive_of_reconfigure h)
    exact ⟨f', hf', refSlot_le_of_reconfigure h hf hf'⟩

theorem onward_of_setFastLane (h : s.setFastLane slots = .ok (s', changed)) :
    s.Onward t s' t where
  initialEpoch _ := by
    obtain rfl := setFastLane_eq_ok h
    exact UInt64.le_refl _
  frame hf := ⟨_, (frameAt_of_setFastLane h).trans hf, UInt64.le_refl _⟩

end Schedule

namespace Engine

variable {π ε : Type} [ReportProcessor π ε] {e e₁ : Engine π} {now : Word} {c : Command π}

/-- Frames go on whatever an accepted call changes. -/
theorem Amends.onward {settles : Bool} (h : e.Amends now c e₁ settles) :
    e.schedule.Onward now e₁.schedule now := by
  cases h with
  | updateInitialEpoch _ hs _ =>
    rw [emitIf_schedule]
    exact Schedule.onward_of_setInitialEpoch hs
  | setFrameConfig _ hs =>
    rw [emitIf_schedule, emitIf_schedule]
    exact Schedule.onward_of_reconfigure hs
  | setFastLane _ hs =>
    rw [emitIf_schedule]
    exact Schedule.onward_of_setFastLane hs
  | submitReport _ => exact .refl _ _
  | _ =>
    simp only [emit, emitIf_schedule, requorum_schedule]
    exact .refl _ _

theorem Performed.onward {r : Reply (Error ε) (Engine π) (Option π)} (h : e.Performed now c r) :
    e.schedule.Onward now r.state.schedule now := by
  cases h with
  | amended hamends => exact hamends.onward
  | settled hamends hs => exact hs.sameVotes.schedule ▸ hamends.onward
  | _ => exact .refl _ _

theorem onward_act (e : Engine π) (now : Word) (a : Act π) :
    e.schedule.Onward now (e.act now a).schedule now := by
  cases a with
  | call c => exact (e.performed now c).onward
  | tend f => exact .refl _ _
  | drain => exact .refl _ _

/-- Frames go on throughout a run on a clock that does not go back, and from then on. -/
theorem onward_after {since : Word} {run : List (Word × Act π)}
    (hclock : (since :: (run.map (·.1) ++ [now])).Pairwise (· ≤ ·)) :
    e.schedule.Onward since (e.after run).schedule now := by
  rw [← List.cons_append] at hclock
  obtain ⟨hrun, -, hnow⟩ := List.pairwise_append.mp hclock
  refine invariant_of_clock (I := fun e' t => e.schedule.Onward since e'.schedule t) ?_ ?_
    (.refl _ _) hrun fun t ht => hnow t ht now (List.mem_singleton_self _)
  · exact fun _ _ _ hle h => h.trans (Schedule.onward_of_le hle)
  · exact fun e' t a h => h.trans (e'.onward_act t a)

/-- Once frames have begun, nobody can move the initial epoch. -/
theorem updateInitialEpoch_refused (hactive : e.schedule.isActive now = true) (caller : Address)
    (epoch : Word) :
    ∃ err : Error ε, e.updateInitialEpoch now caller epoch = ⟨.error err, e⟩ := by
  cases hr : e.updateInitialEpoch (ε := ε) now caller epoch with
  | mk result e' =>
    rw [updateInitialEpoch] at hr
    cases result with
    | error err =>
      obtain rfl := Reply.eq_of_ofExcept_eq_error hr
      exact ⟨err, rfl⟩
    | ok u =>
      rw [Reply.ofExcept_eq_ok] at hr
      simp only [bind_eq_ok, mapError_eq_ok] at hr
      obtain ⟨-, -, ⟨s, changed⟩, hs, -⟩ := hr
      obtain ⟨-, hinactive, -⟩ := Schedule.setInitialEpoch_eq_ok.mp hs
      cases hinactive.symm.trans hactive

/-- Once an engine in whatever state has a current frame, it has one after every run on a clock that
does not go back, whatever its calls, accepted or refused, and whatever its processor does
meanwhile. The reference slot of that frame is not before that of the earlier one, the initial epoch
has not been moved back and is not after the current epoch, and every call that would move it is
refused and changes nothing. -/
theorem activation_irrevocable {since : Word} {f : Frame} (hf : e.currentFrame since = .ok f)
    (run : List (Word × Act π)) (now : Word)
    (hclock : (since :: (run.map (·.1) ++ [now])).Pairwise (· ≤ ·)) :
    let e' := e.after run
    (∃ f', e'.currentFrame now = .ok f' ∧ f.refSlot ≤ f'.refSlot) ∧
      e.schedule.layout.initialEpoch ≤ e'.schedule.layout.initialEpoch ∧
      e'.schedule.layout.initialEpoch ≤ e'.schedule.grid.epochAt now ∧
      ∀ caller epoch, ∃ err : Error ε,
        e'.updateInitialEpoch now caller epoch = ⟨.error err, e'⟩ := by
  intro e'
  have honward : e.schedule.Onward since e'.schedule now := onward_after hclock
  have hsince : e.schedule.isActive since = true := (Schedule.frameAt_eq_ok.mp hf).1
  have hactive := honward.isActive hsince
  refine ⟨honward.frame hf, honward.initialEpoch hsince, ?_, fun caller epoch => ?_⟩
  · simpa [Schedule.isActive] using hactive
  · exact updateInitialEpoch_refused hactive caller epoch

/-- Frames get longer and then shorter, so that the initial epoch moves on from the first to the
third and the reference slot from 31 to 191. The administrator tries in vain to begin again with the
first epoch. -/
theorem onward_through_two_changes :
    let admin : Address := .ofLowByte 9
    let setup : Setup := ⟨.ofLowByte 8, ⟨32, 12, 100⟩, 2, 0, admin⟩
    let recorder : Recorder := { address := .ofLowByte 7, version := 1, processingSlot := 0 }
    let opening : List (Word × Act Recorder) :=
      [(100, .call (.grantRole admin .manageFrameConfig admin)),
        (100, .call (.updateInitialEpoch admin 1))]
    let run : List (Word × Act Recorder) :=
      [(1636, .call (.setFrameConfig admin 4 0)), (1636, .call (.updateInitialEpoch admin 1)),
        (2404, .call (.setFrameConfig admin 1 0)), (2404, .call (.setFrameConfig admin 0 0))]
    ∃ e₀, create setup recorder = .ok e₀ ∧
      let e := e₀.after opening
      let e' := e.after run
      e.currentFrame 484 = .ok ⟨0, 31, 95⟩ ∧ (e.accepted run).length = 2 ∧
        ((484 : Word) :: (run.map (·.1) ++ [2404])).Pairwise (· ≤ ·) ∧
        e'.currentFrame 2404 = .ok ⟨3, 191, 223⟩ ∧ e'.schedule.layout.initialEpoch = 3 ∧
        ∃ err, e'.updateInitialEpoch 2404 admin 1 = ⟨.error err, e'⟩ := by
  intro admin setup recorder opening run
  have hrun : (create setup recorder).toOption.any (fun e₀ => decide (
      ((e₀.after opening).currentFrame 484).toOption = some ⟨0, 31, 95⟩ ∧
        ((e₀.after opening).accepted run).length = 2 ∧
        (((e₀.after opening).after run).currentFrame 2404).toOption = some ⟨3, 191, 223⟩ ∧
        ((e₀.after opening).after run).schedule.layout.initialEpoch = 3)) = true := by
    decide +kernel
  have hclock : ((484 : Word) :: (run.map (·.1) ++ [2404])).Pairwise (· ≤ ·) := by decide +kernel
  obtain ⟨e₀, hmade, hf, haccepted, hf', hinitial⟩ := exists_of_any hrun
  rw [toOption_eq_some] at hf hf'
  obtain ⟨-, -, -, hrefused⟩ := activation_irrevocable hf run 2404 hclock
  exact ⟨e₀, hmade, hf, haccepted, hclock, hf', hinitial, hrefused admin 1⟩

end Engine

end ReportQuorum
