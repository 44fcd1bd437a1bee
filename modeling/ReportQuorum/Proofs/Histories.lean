import ReportQuorum.Proofs.Calls
import ReportQuorum.Simulation

/-!
# Histories of a node

A play takes a node from state to state. Each step either moves the clock, or calls the engine or
the oracle at the moment that the clock shows. What holds of a new node, and what every step keeps
that does not move the clock back, holds throughout a play on a clock that does not go back.

## Main definitions

* `Simulation.State.next`, `Simulation.State.after`: the state after a step and after a script
* `Simulation.State.Forward`: no step of a script moves the clock back
* `Simulation.Taken`, `Simulation.Replied`: what a step of a script does, with the reply to it

## Main results

* `Simulation.play_state`: a play goes through these states
* `Simulation.State.Forward.keep`: what every step keeps holds after a script
* `Simulation.replied_apply`, `Simulation.taken_next`: the list of what a step does is complete
-/

namespace ReportQuorum

/-- Whether a call is one after which the votes are settled, as long as they matter. -/
def Engine.Command.isBallot {π : Type} : Engine.Command π → Bool
  | .addMember .. => true
  | .removeMember .. => true
  | .setQuorum .. => true
  | .disableConsensus .. => true
  | .submitReport .. => true
  | _ => false

theorem Engine.Command.not_replaces_of_isBallot {π : Type} {c : Engine.Command π}
    (h : c.isBallot = true) : c.replaces = false := by
  cases c with
  | setReportProcessor caller p => cases h
  | _ => rfl

namespace Simulation

open Scenario (Step)

variable {s : State} {step : Step} {steps steps' : List Step}

namespace State

/-- The state after a step of a script, whose events are fetched. -/
def next (s : State) (step : Step) : State :=
  { (apply s step).state with node := (apply s step).state.node.drained }

/-- The state after a script. -/
def after (s : State) : List Step → State
  | [] => s
  | step :: steps => (s.next step).after steps

/-- No step of a script moves the clock back. -/
def Forward (s : State) : List Step → Prop
  | [] => True
  | step :: steps => s.now ≤ (s.next step).now ∧ (s.next step).Forward steps

instance decidableForward (s : State) (steps : List Step) : Decidable (s.Forward steps) :=
  match steps with
  | [] => inferInstanceAs (Decidable True)
  | step :: steps =>
    have := decidableForward (s.next step) steps
    inferInstanceAs (Decidable (_ ∧ _))

theorem after_append (s : State) (steps steps' : List Step) :
    s.after (steps ++ steps') = (s.after steps).after steps' := by
  induction steps generalizing s with
  | nil => rfl
  | cons step steps ih => exact ih (s.next step)

theorem forward_append :
    s.Forward (steps ++ steps') ↔ s.Forward steps ∧ (s.after steps).Forward steps' := by
  induction steps generalizing s with
  | nil => simp [Forward, after]
  | cons step steps ih => rw [List.cons_append, Forward, Forward, after, ih, and_assoc]

namespace Forward

/-- What every step keeps that does not move the clock back holds after a script. It may speak of
the steps taken so far. -/
theorem keep {I : List Step → Prop} (h : I [])
    (hstep : ∀ done step, s.Forward (done ++ [step]) → I done → I (done ++ [step]))
    (hforward : s.Forward steps) : I steps := by
  -- The induction goes along the rest of the script, with what is done so far in front of it.
  suffices hall : ∀ done, s.Forward (done ++ steps) → I done → I (done ++ steps) from
    hall [] hforward h
  clear hforward
  induction steps with
  | nil =>
    intro done _ hdone
    rwa [List.append_nil]
  | cons step steps ih =>
    intro done hforward hdone
    rw [List.append_cons] at hforward ⊢
    have hlast := (forward_append.mp hforward).1
    exact ih (done ++ [step]) hforward (hstep done step hlast hdone)

end Forward

end State

/-- A play goes through the states after the beginnings of its script. -/
theorem play_state (p : Progress) (index : Nat) (steps : List Step) :
    (p.play index steps).state = p.state.after steps := by
  induction steps generalizing p index with
  | nil => rfl
  | cons step steps ih => exact ih (p.next index step) (index + 1)

/-- What a step of a script does. -/
inductive Taken (s : State) : Step → State → Prop
  /-- The clock moves, or the step cannot be taken. -/
  | rested {step : Step} (now : Word) : Taken s step { s with now }
  /-- The engine is called about votes or members. -/
  | called {step : Step} (c : Engine.Command (Oracle ReportLog)) (hc : c.isBallot = true) :
      Taken s step { s with node.engine := (s.node.engine.perform s.now c).state }
  /-- The layout of frames is to be changed. -/
  | replanned (epochs slots : Word) :
      Taken s (.setFrameConfig epochs slots)
        { s with
          node.engine := (s.node.engine.perform s.now
            (.setFrameConfig s.node.admin epochs slots)).state }
  /-- The oracle is asked to start. -/
  | started :
      Taken s .startProcessing
        { s with
          node.engine.processor := (s.node.engine.processor.startProcessing s.now).state }

/-- What a step of a script does, with the reply to it. -/
inductive Replied (s : State) : Step → Reply Node.Error State Unit → Prop
  /-- The clock moves. -/
  | moved {step : Step} (now : Word) : Replied s step ⟨.ok (), { s with now }⟩
  /-- A vote names no reference slot, and there is no current one. -/
  | frameless {step : Step} (cause : Schedule.Error) :
      Replied s step ⟨.error (.engine (.schedule cause)), s⟩
  /-- The engine is called about votes or members. -/
  | called {step : Step} {c : Engine.Command (Oracle ReportLog)}
      {r : Reply (Engine.Error (Oracle.Error Empty)) (Engine (Oracle ReportLog)) Unit}
      (hc : c.isBallot = true)
      (hr : s.node.engine.perform s.now c = Engine.perform.answerNone r) :
      Replied s step (s.afterEngine r)
  /-- The layout of frames is to be changed. -/
  | replanned (epochs slots : Word) :
      Replied s (.setFrameConfig epochs slots)
        (s.afterEngine (s.node.engine.setFrameConfig s.now s.node.admin epochs slots))
  /-- The oracle is asked to start. -/
  | started :
      Replied s .startProcessing (s.afterOracle (s.node.engine.processor.startProcessing s.now))

/-- A step does nothing but what is listed. -/
theorem replied_apply (s : State) (step : Step) : Replied s step (apply s step) := by
  cases step with
  | setTime time => exact .moved _
  | advanceTime seconds => exact .moved _
  | advanceSlots slots => exact .moved _
  | submitReport member report refSlot version =>
    cases refSlot with
    | some refSlot => exact .called (c := .submitReport member ⟨refSlot, report⟩ _) rfl rfl
    | none =>
      -- The reference slot is that of the current frame, if there is one.
      cases hframe : s.node.engine.currentFrame s.now with
      | error cause =>
        simp only [apply, hframe]
        exact .frameless cause
      | ok f =>
        simp only [apply, hframe]
        exact .called (c := .submitReport member ⟨f.refSlot, report⟩ _) rfl rfl
  | addMember member quorum => exact .called (c := .addMember _ member quorum) rfl rfl
  | removeMember member quorum => exact .called (c := .removeMember _ member quorum) rfl rfl
  | setQuorum quorum => exact .called (c := .setQuorum _ quorum) rfl rfl
  | disableConsensus => exact .called (c := .disableConsensus _) rfl rfl
  | setFrameConfig epochs slots => exact .replanned epochs slots
  | startProcessing => exact .started

theorem Replied.taken {r : Reply Node.Error State Unit} (h : Replied s step r) :
    Taken s step r.state := by
  cases h with
  | moved now => exact .rested now
  | frameless cause => exact .rested s.now
  | called hc hr =>
    have htaken : Taken s step _ := .called _ hc
    rw [hr] at htaken
    exact htaken
  | replanned epochs slots => exact .replanned epochs slots
  | started => exact .started

/-- The state after a step is one of those listed. -/
theorem taken_apply (s : State) (step : Step) : Taken s step (apply s step).state :=
  (replied_apply s step).taken

/-- A step of a play does nothing else, and then the events are fetched. -/
theorem taken_next (s : State) (step : Step) :
    ∃ s', Taken s step s' ∧ s.next step = { s' with node := s'.node.drained } :=
  ⟨_, taken_apply s step, rfl⟩

end Simulation

end ReportQuorum
