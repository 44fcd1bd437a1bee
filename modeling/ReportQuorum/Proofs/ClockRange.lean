import Mathlib.Algebra.GroupWithZero.Nat
import ReportQuorum.Proofs.Activation
import ReportQuorum.Proofs.Plays

/-!
# How far a script can move the clock on

A script that never sets the clock can only move it on. The clock is a word, however, and a move
beyond the last word begins again at the first. So a script without a setting of the clock lets it
go back exactly if its moves add up to more seconds than are left at its beginning. As long as they
do not, no step moves the clock back, and the frames go on with it.

## Main definitions

* `Scenario.Step.seconds`: by how much a step moves the clock on
* `Scenario.Step.setsClock`: whether a step sets the clock

## Main results

* `Simulation.toNat_now_after`: the clock shows the sum of the moves, as far as words go
* `Simulation.forward_iff_lt_size`: which sums let it go back
* `Simulation.onward_after_of_forward`: frames go on with a clock that does not go back
* `Simulation.forward_iff_moves_fit`: when the clock of a play does not go back, and what follows
* `Simulation.back_by_one_second`: it may go back, and frames with it
-/

namespace ReportQuorum

namespace Scenario.Step

/-- The number of seconds by which a step moves the clock on. A number of slots stands for the
seconds they last, but for no more than the last word. -/
def seconds (g : TimeGrid) : Step → Nat
  | .advanceTime seconds => seconds.toNat
  | .advanceSlots slots => min (slots.toNat * g.secondsPerSlot.toNat) (UInt64.size - 1)
  | _ => 0

/-- Whether a step sets the clock. -/
def setsClock : Step → Bool
  | .setTime _ => true
  | _ => false

theorem seconds_lt_size (g : TimeGrid) (step : Step) : step.seconds g < UInt64.size := by
  cases step with
  | advanceTime seconds => exact seconds.toNat_lt_size
  | advanceSlots slots => exact Nat.lt_of_le_of_lt (Nat.min_le_right ..) (by decide)
  | _ => exact Nat.zero_lt_succ _

end Scenario.Step

/-- A new node has the time grid of its configuration. -/
theorem Node.grid_of_create {c : Config} {now : Word} {n : Node} (h : create c now = .ok n) :
    n.engine.schedule.grid = c.grid := by
  refine invariant_of_create (I := fun e => e.schedule.grid = c.grid) ?_ ?_ ?_ h
  · intro o e ho he
    have hmirrored := mirrored_of_engine_create ho he
    rw [← hmirrored.grid, (Engine.created_of_create he).processor]
    exact (Oracle.created_of_create ho).grid
  · exact fun e call _ _ he => (e.performed now call).grid.trans he
  · exact fun _ _ _ he => he

namespace Simulation

open Scenario (Step)

variable {s : State} {step : Step} {steps : List Step} {g : TimeGrid}

/-! ### The clock -/

theorem grid_next (s : State) (step : Step) :
    (s.next step).node.engine.schedule.grid = s.node.engine.schedule.grid := by
  obtain ⟨s', htaken, hnext⟩ := taken_next s step
  rw [hnext]
  change s'.node.engine.schedule.grid = _
  cases htaken with
  | rested now => rfl
  | called c hc => exact (s.node.engine.performed s.now c).grid
  | replanned epochs slots =>
    exact (s.node.engine.performed s.now (.setFrameConfig _ epochs slots)).grid
  | started => rfl

/-- A call leaves the clock alone. The other steps move it by their seconds, less what is beyond the
last word. -/
theorem toNat_now_next (hgrid : s.node.engine.schedule.grid = g) (hstep : step.setsClock = false) :
    (s.next step).now.toNat = (s.now.toNat + step.seconds g) % UInt64.size := by
  have hkept : s.now.toNat = (s.now.toNat + 0) % UInt64.size :=
    (Nat.mod_eq_of_lt s.now.toNat_lt_size).symm
  cases step with
  | setTime time => cases hstep
  | advanceTime seconds => exact UInt64.toNat_add ..
  | advanceSlots slots =>
    refine (UInt64.toNat_add ..).trans ?_
    rw [Word.toNat_mulSat, hgrid]
    rfl
  | submitReport member report refSlot version =>
    cases refSlot with
    | some refSlot => exact hkept
    | none =>
      have hnow : (s.next (.submitReport member report none version)).now = s.now := by
        -- Without a current frame the vote does not even reach the engine.
        cases hframe : s.node.engine.currentFrame s.now with
        | error cause => simp only [State.next, apply, hframe]
        | ok f => simp only [State.next, apply, hframe]; rfl
      rw [hnow]
      exact hkept
  | _ => exact hkept

/-- The clock shows the sum of the moves since the beginning, less what is beyond the last word. -/
theorem toNat_now_after (hgrid : s.node.engine.schedule.grid = g)
    (hsteps : ∀ step ∈ steps, step.setsClock = false) :
    (s.after steps).now.toNat =
      (s.now.toNat + (steps.map (Step.seconds g)).sum) % UInt64.size := by
  induction steps generalizing s with
  | nil => exact (Nat.mod_eq_of_lt s.now.toNat_lt_size).symm
  | cons step steps ih =>
    obtain ⟨hstep, hrest⟩ := List.forall_mem_cons.mp hsteps
    rw [State.after, ih ((grid_next s step).trans hgrid) hrest, toNat_now_next hgrid hstep,
      Nat.mod_add_mod, List.map_cons, List.sum_cons, Nat.add_assoc]

/-- No step moves the clock back exactly if the moves add up to no more than the words that are
left. -/
theorem forward_iff_lt_size (hgrid : s.node.engine.schedule.grid = g)
    (hsteps : ∀ step ∈ steps, step.setsClock = false) :
    s.Forward steps ↔ s.now.toNat + (steps.map (Step.seconds g)).sum < UInt64.size := by
  induction steps generalizing s with
  | nil => exact iff_of_true trivial s.now.toNat_lt_size
  | cons step steps ih =>
    obtain ⟨hstep, hrest⟩ := List.forall_mem_cons.mp hsteps
    have hnext := toNat_now_next hgrid hstep
    have hsmall := step.seconds_lt_size g
    have hnow := s.now.toNat_lt_size
    rw [State.Forward, ih ((grid_next s step).trans hgrid) hrest, UInt64.le_iff_toNat_le, hnext,
      List.map_cons, List.sum_cons]
    by_cases hfits : s.now.toNat + step.seconds g < UInt64.size
    · rw [Nat.mod_eq_of_lt hfits]
      omega
    · -- A move beyond the last word ends before the place where it began.
      rw [Nat.mod_eq_sub_mod (Nat.le_of_not_lt hfits), Nat.mod_eq_of_lt (by omega)]
      omega

theorem State.Forward.now_le (h : s.Forward steps) : s.now ≤ (s.after steps).now := by
  induction steps generalizing s with
  | nil => exact UInt64.le_refl _
  | cons step steps ih => exact UInt64.le_trans h.1 (ih h.2)

/-! ### The frames -/

/-- A step that does not move the clock back lets the frames go on. -/
theorem onward_next (hnow : s.now ≤ (s.next step).now) :
    s.node.engine.schedule.Onward s.now (s.next step).node.engine.schedule (s.next step).now := by
  obtain ⟨s', htaken, hnext⟩ := taken_next s step
  rw [hnext] at hnow ⊢
  change s.node.engine.schedule.Onward s.now s'.node.engine.schedule s'.now
  cases htaken with
  | rested now => exact Schedule.onward_of_le hnow
  | called c hc => exact (s.node.engine.performed s.now c).onward
  | replanned epochs slots =>
    exact (s.node.engine.performed s.now (.setFrameConfig _ epochs slots)).onward
  | started => exact .refl _ _

/-- Frames go on throughout a script that does not move the clock back. -/
theorem onward_after_of_forward (hforward : s.Forward steps) :
    s.node.engine.schedule.Onward s.now (s.after steps).node.engine.schedule
      (s.after steps).now := by
  induction steps generalizing s with
  | nil => exact .refl _ _
  | cons step steps ih => exact (onward_next hforward.1).trans (ih hforward.2)

/-! ### Plays -/

/-- In every play of a script that does not set the clock, the clock shows after each step the sum
of the moves so far, less what is beyond the last word. No step moves the clock back exactly if the
moves of the whole script fit the words that are left at its beginning. Then, if there is a current
frame after some part of the script, there is one after every longer part, and its reference slot is
not before that of the other. -/
theorem forward_iff_moves_fit {c : Node.Config} {now : Word} {n : Node}
    (h : Node.create c now = .ok n) {steps : List Step}
    (hsteps : ∀ step ∈ steps, step.setsClock = false) :
    let p (done : List Step) : State := ((Progress.start now n).play 0 done).state
    let moves (done : List Step) : Nat := (done.map (Step.seconds c.grid)).sum
    (∀ done, done <+: steps →
        (p done).now.toNat = (now.toNat + moves done) % UInt64.size) ∧
      ((Progress.start now n).state.Forward steps ↔ now.toNat + moves steps < UInt64.size) ∧
      (now.toNat + moves steps < UInt64.size → ∀ early late, early ++ late <+: steps →
        (p early).now ≤ (p (early ++ late)).now ∧
          ∀ f, (p early).node.engine.currentFrame (p early).now = .ok f →
            ∃ f', (p (early ++ late)).node.engine.currentFrame (p (early ++ late)).now = .ok f' ∧
              f.refSlot ≤ f'.refSlot) := by
  intro p moves
  have hstate : ∀ done, p done = (Progress.start now n).state.after done := play_state _ _
  have hgrid : (Progress.start now n).state.node.engine.schedule.grid = c.grid :=
    (Node.grid_of_create h :)
  refine ⟨?_, forward_iff_lt_size hgrid hsteps, ?_⟩
  · intro done hdone
    rw [hstate]
    exact toNat_now_after hgrid fun step hmem => hsteps step (hdone.subset hmem)
  · intro hfits early late hprefix
    obtain ⟨rest, rfl⟩ := hprefix
    have hforward := (forward_iff_lt_size hgrid hsteps).mpr hfits
    obtain ⟨hearly, hlate⟩ := State.forward_append.mp (State.forward_append.mp hforward).1
    rw [hstate, hstate, State.after_append]
    exact ⟨hlate.now_le, fun f hf => (onward_after_of_forward hlate).frame hf⟩

/-- The clock moves on by a frame and then to the last moment of all. The moves just fit. -/
theorem forward_to_last_moment :
    let c := Node.Config.sample (fun i => .ofLowByte (.ofNat (i + 1))) 1
    let frame : List Step := [.advanceSlots 7200]
    let rest : List Step := [.advanceTime (Word.last - c.startTime - 7200 * 12)]
    ∃ n, Node.create c c.startTime = .ok n ∧
      (Progress.start c.startTime n).state.Forward (frame ++ rest) ∧
      let p (done : List Step) : State := ((Progress.start c.startTime n).play 0 done).state
      (p frame).now ≤ (p (frame ++ rest)).now ∧
        ∃ f, (p (frame ++ rest)).node.engine.currentFrame (p (frame ++ rest)).now = .ok f ∧
          7231 ≤ f.refSlot := by
  intro c frame rest
  have hplay : (Node.create c c.startTime).toOption.any (fun n =>
      let s := ((Progress.start c.startTime n).play 0 frame).state
      decide ((s.node.engine.currentFrame s.now).toOption = some ⟨1, 7231, 14431⟩)) = true := by
    decide +kernel
  have hsteps : ∀ step ∈ frame ++ rest, step.setsClock = false := by decide
  have hfits : c.startTime.toNat + ((frame ++ rest).map (Step.seconds c.grid)).sum < UInt64.size :=
    by decide +kernel
  obtain ⟨n, hmade, hf⟩ := exists_of_any hplay
  obtain ⟨-, hiff, honward⟩ := forward_iff_moves_fit hmade hsteps
  obtain ⟨hle, hframe⟩ := honward hfits frame rest (List.prefix_refl _)
  exact ⟨n, hmade, hiff.mpr hfits, hle, hframe _ (toOption_eq_some.mp hf)⟩

/-- The clock has come to the second frame when it is moved on by as many slots as a word can name.
They are worth no more seconds than the last word, and that many seconds on the clock is one second
back: the first frame is the current one again. -/
theorem back_by_one_second :
    let c := Node.Config.sample (fun i => .ofLowByte (.ofNat (i + 1))) 1
    let steps : List Step := [.advanceSlots 7200, .advanceSlots Word.last]
    ∃ n, Node.create c c.startTime = .ok n ∧ (∀ step ∈ steps, step.setsClock = false) ∧
      ¬ (Progress.start c.startTime n).state.Forward steps ∧
      let s := ((Progress.start c.startTime n).play 0 [.advanceSlots 7200]).state
      let s' := ((Progress.start c.startTime n).play 0 steps).state
      s'.now.toNat + 1 = s.now.toNat ∧ s.node.engine.currentFrame s.now = .ok ⟨1, 7231, 14431⟩ ∧
        s'.node.engine.currentFrame s'.now = .ok ⟨0, 31, 7231⟩ := by
  intro c steps
  have hplay : (Node.create c c.startTime).toOption.any (fun n =>
      let s := ((Progress.start c.startTime n).play 0 [.advanceSlots 7200]).state
      let s' := ((Progress.start c.startTime n).play 0 steps).state
      decide (¬ (Progress.start c.startTime n).state.Forward steps ∧
        s'.now.toNat + 1 = s.now.toNat ∧
        (s.node.engine.currentFrame s.now).toOption = some ⟨1, 7231, 14431⟩ ∧
        (s'.node.engine.currentFrame s'.now).toOption = some ⟨0, 31, 7231⟩)) = true := by
    decide +kernel
  obtain ⟨n, hmade, hback, hclock, hf, hf'⟩ := exists_of_any hplay
  exact ⟨n, hmade, by decide, hback, hclock, toOption_eq_some.mp hf, toOption_eq_some.mp hf'⟩

end Simulation

end ReportQuorum
