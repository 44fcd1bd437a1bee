import ReportQuorum.Proofs.Exchanges

/-!
# The two logs of a node agree

An engine logs the outcomes of settling the votes, and its oracle logs what it was handed and what
it has given back. The logs are written by two parties, and a call may stop half-way between them;
read side by side they tell the same story all the same: each report that reached the quorum was
handed over once, in the same order, and was given back exactly if the next outcome is for the same
reference slot.

## Main definitions

* `Engine.withdrawn`: the reports that a sequence of outcomes has withdrawn again
* `Engine.Balanced`: the logs so far agree with each other and with what is noted as agreed

## Main results

* `Engine.Balanced.dealt`: what a call deals keeps the logs in agreement
* `Simulation.logs_agree`: the logs of a node agree after every play
-/

namespace ReportQuorum

namespace Engine

/-- The reports that outcomes have withdrawn: each that was agreed on when an outcome for the same
reference slot came next. -/
def withdrawn : List Outcome → List Vote
  | b :: next :: rest => next.takesBack b.vote? ++ withdrawn (next :: rest)
  | _ => []

/-- What is agreed on after a sequence of outcomes. -/
def agreedAfter (outcomes : List Outcome) : Option Vote := outcomes.getLast?.bind Outcome.vote?

theorem withdrawn_concat (outcomes : List Outcome) (b : Outcome) :
    withdrawn (outcomes ++ [b]) = withdrawn outcomes ++ b.takesBack (agreedAfter outcomes) := by
  induction outcomes with
  | nil => rfl
  | cons first rest ih =>
    cases rest with
    | nil => exact List.append_nil _
    | cons second rest =>
      -- The first outcome is followed by the second one with or without the new one.
      have hlast : agreedAfter (first :: second :: rest) = agreedAfter (second :: rest) := by
        rw [agreedAfter, agreedAfter, List.getLast?_cons_cons]
      rw [hlast, withdrawn, List.append_assoc, ← ih]
      rfl

theorem agreedAfter_concat (outcomes : List Outcome) (b : Outcome) :
    agreedAfter (outcomes ++ [b]) = b.vote? := by
  rw [agreedAfter, List.getLast?_concat, Option.bind_some]

/-- The reports handed over are those that reached the quorum, those given back are those that the
outcomes have withdrawn, and what the last outcome says is noted as agreed. -/
structure Balanced (outcomes : List Outcome) (submitted discarded : List Vote)
    (agreed : Option Vote) : Prop where
  submitted : submitted = outcomes.filterMap Outcome.vote?
  discarded : discarded = withdrawn outcomes
  agreed : agreed = agreedAfter outcomes

namespace Balanced

variable {η : Type} {e e' : Engine (Oracle η)} {outcomes : List Outcome}
  {submitted discarded : List Vote}

/-- What a call deals keeps the logs in agreement. -/
theorem dealt (h : Balanced outcomes submitted discarded e.tally.agreed) (hdealt : e.Dealt e') :
    ∃ outcomes' submitted' discarded', e.Tells e' outcomes' submitted' discarded' ∧
      Balanced (outcomes ++ outcomes') (submitted ++ submitted') (discarded ++ discarded')
        e'.tally.agreed := by
  cases hdealt with
  | nothing told agreed =>
    refine ⟨[], [], [], told, ?_⟩
    rw [List.append_nil, List.append_nil, List.append_nil, agreed]
    exact h
  | outcome b _ told agreed =>
    refine ⟨_, _, _, told, ?_, ?_, ?_⟩
    · rw [List.filterMap_append, ← h.submitted, List.filterMap_cons, List.filterMap_nil]
      cases b.vote? <;> rfl
    · rw [withdrawn_concat, ← h.discarded, ← h.agreed]
    · rw [agreedAfter_concat, agreed]

end Balanced

/-- The events that nobody has fetched yet are in agreement with what is noted. -/
def PendingBalanced {η : Type} (e : Engine (Oracle η)) : Prop :=
  Balanced (outcomesOf e.events) (Oracle.submittedIn e.processor.events)
    (Oracle.discardedIn e.processor.events) e.tally.agreed

theorem PendingBalanced.dealt {η : Type} {e e' : Engine (Oracle η)} (h : e.PendingBalanced)
    (hdealt : e.Dealt e') : e'.PendingBalanced := by
  obtain ⟨outcomes, submitted, discarded, told, hbalanced⟩ := Balanced.dealt h hdealt
  rw [← told.outcomes, ← told.submitted, ← told.discarded] at hbalanced
  exact hbalanced

/-- A new engine tells of no outcome. -/
theorem outcomesOf_create {π ε : Type} [ReportProcessor π ε] {setup : Setup} {processor : π}
    {e : Engine π} (h : create setup processor = .ok e) : outcomesOf e.events = [] := by
  rw [create, refusal_eq_ok (by simp), refusal_eq_ok (by simp)] at h
  obtain ⟨-, -, h⟩ := h
  split at h
  · cases h
  · cases h
    generalize (setup.fastLaneSlots != 0) = lane
    cases lane <;> rfl

end Engine

open ReportHandler (willing_reportLog)

namespace Node

variable {c : Config} {now : Word} {n : Node}

/-- The logs of a new node agree. -/
theorem balanced_of_create (h : create c now = .ok n) : n.engine.PendingBalanced := by
  suffices hboth : n.engine.Mirrored ∧ n.engine.PendingBalanced from hboth.2
  refine invariant_of_grants (I := fun e => e.Mirrored ∧ e.PendingBalanced) ?_ ?_ ?_ h
  · intro o e ho he
    have hcreated := Engine.created_of_create he
    refine ⟨mirrored_of_engine_create ho he, ?_⟩
    rw [Engine.PendingBalanced, Engine.outcomesOf_create he, hcreated.processor, hcreated.tally,
      Oracle.events_of_create ho]
    exact ⟨rfl, rfl, rfl⟩
  · intro e c hc _ ⟨hmirrored, hbalanced⟩
    exact ⟨hmirrored.perform hc, hbalanced.dealt (hmirrored.dealt_perform willing_reportLog hc)⟩
  · intro e role e' hok ⟨hmirrored, hbalanced⟩
    obtain ⟨o, roles, changed, rfl, rfl⟩ := eq_of_grantInOracle hok
    refine ⟨hmirrored.with_processor (by simp) (by simp) (Oracle.held_congr (by simp)), ?_⟩
    -- The grant of a role tells nothing of reports.
    refine hbalanced.dealt (.nothing ⟨(List.append_nil _).symm, ?_, ?_⟩ rfl)
    · cases changed
      · exact (List.append_nil _).symm
      · exact Oracle.submittedIn_append _ _
    · cases changed
      · exact (List.append_nil _).symm
      · exact Oracle.discardedIn_append _ _

end Node

namespace Simulation

open Scenario (Step)

/-- The events of a play are in agreement with what the engine has noted after it. -/
def Progress.Balanced (p : Progress) : Prop :=
  Engine.Balanced (Node.outcomes p.events) (Node.submitted p.events) (Node.discarded p.events)
    p.state.node.engine.tally.agreed

namespace Progress

variable {p : Progress}

theorem balanced_start {c : Node.Config} {now : Word} {n : Node} (h : Node.create c now = .ok n) :
    (start now n).Balanced := by
  have hpending : n.engine.PendingBalanced := Node.balanced_of_create h
  rw [Balanced, Node.outcomes, Node.submitted, Node.discarded]
  change Engine.Balanced (Engine.outcomesOf (n.pending.filterMap _))
    (Oracle.submittedIn (n.pending.filterMap _)) (Oracle.discardedIn (n.pending.filterMap _)) _
  rw [Node.engine_pending, Node.oracle_pending]
  exact hpending

/-- Every step of a play keeps the logs in agreement. -/
theorem Rested.balanced_next (h : p.Rested) (hbalanced : p.Balanced) (index : Nat) (step : Step) :
    (p.next index step).Balanced := by
  have hdealt := dealt_taken h.mirrored (taken_apply p.state step)
  obtain ⟨outcomes, submitted, discarded, htells, hnext⟩ := Engine.Balanced.dealt hbalanced hdealt
  obtain ⟨houtcomes, hsubmitted, hdiscarded⟩ := h.told htells
  rw [Balanced, Progress.next, Node.outcomes_append, Node.submitted_append, Node.discarded_append,
    houtcomes, hsubmitted, hdiscarded]
  exact hnext

theorem Rested.balanced_play (h : p.Rested) (hbalanced : p.Balanced) (index : Nat)
    (steps : List Step) : (p.play index steps).Balanced := by
  induction steps generalizing p index with
  | nil => exact hbalanced
  | cons step steps ih =>
    exact ih (h.next index step) (h.balanced_next hbalanced index step) (index + 1)

end Progress

/-- In every play against a new node, whatever its steps and however its clock moves, the reports
that the oracle tells it was handed are those that the engine tells have reached the quorum, in the
same order; and those that the oracle tells it has given back are those of them whose reference slot
has another outcome next, in the same order. -/
theorem logs_agree {c : Node.Config} {now : Word} {n : Node} (h : Node.create c now = .ok n)
    (steps : List Step) :
    let events := ((Progress.start now n).play 0 steps).events
    Node.submitted events = (Node.outcomes events).filterMap Engine.Outcome.vote? ∧
      Node.discarded events = Engine.withdrawn (Node.outcomes events) := by
  intro events
  have hbalanced : ((Progress.start now n).play 0 steps).Balanced :=
    (Progress.rested_start h).balanced_play (Progress.balanced_start h) 0 steps
  exact ⟨hbalanced.submitted, hbalanced.discarded⟩

/-- A report is replaced by another one, which is lost when the quorum is raised, reached again when
it is lowered, and followed by a report for the next frame. -/
theorem agree_after_flip_and_loss :
    let member (i : Nat) : Address := .ofLowByte (.ofNat (i + 1))
    let c := Node.Config.sample member 3
    let first := Octets.replicate 32 7
    let second := Octets.replicate 32 8
    let steps : List Step :=
      [.submitReport (member 0) first none none, .submitReport (member 1) first none none,
        .submitReport (member 2) second none none, .submitReport (member 1) second none none,
        .setQuorum 3, .setQuorum 2, .advanceSlots 7200, .submitReport (member 0) first none none,
        .submitReport (member 2) first none none]
    ∃ n, Node.create c c.startTime = .ok n ∧
      let events := ((Progress.start c.startTime n).play 0 steps).events
      Node.outcomes events = [⟨31, some first⟩, ⟨31, some second⟩, ⟨31, none⟩, ⟨31, some second⟩,
          ⟨7231, some first⟩] ∧
        Node.submitted events = [⟨31, first⟩, ⟨31, second⟩, ⟨31, second⟩, ⟨7231, first⟩] ∧
        Node.discarded events = [⟨31, first⟩, ⟨31, second⟩] := by
  intro member c first second steps
  have hplay : (Node.create c c.startTime).toOption.any (fun n => decide (
      Node.outcomes ((Progress.start c.startTime n).play 0 steps).events =
        [⟨31, some first⟩, ⟨31, some second⟩, ⟨31, none⟩, ⟨31, some second⟩,
          ⟨7231, some first⟩])) = true := by
    decide +kernel
  obtain ⟨n, hmade, houtcomes⟩ := exists_of_any hplay
  obtain ⟨hsubmitted, hdiscarded⟩ := logs_agree hmade steps
  rw [houtcomes] at hsubmitted hdiscarded
  exact ⟨n, hmade, houtcomes, hsubmitted, hdiscarded⟩

end Simulation

end ReportQuorum
