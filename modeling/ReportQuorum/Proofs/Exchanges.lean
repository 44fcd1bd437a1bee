import ReportQuorum.Proofs.Rejections
import ReportQuorum.Proofs.Runs

/-!
# What an engine and its oracle tell of the same call

Engine and oracle keep events of their own. When settling the votes has an outcome, the engine tells
of the outcome, and the oracle of what it was handed and of what it has given back. Of one call both
tell nothing of this kind, or they tell of the same report, whose reference slot is after the mark.

## Main definitions

* `Engine.Outcome`: an outcome that an engine tells of
* `Engine.Tells`: what events are added on both sides
* `Engine.Dealt`: a call has no outcome, or one
* `Node.outcomes`, `Node.submitted`, `Node.discarded`: what the events of a node tell

## Main results

* `Engine.Mirrored.dealt_settled`: settling the votes has one outcome at most
* `Engine.Mirrored.dealt_perform`: so has every call that does not replace the oracle
* `Simulation.dealt_taken`: and every step of a script
-/

namespace ReportQuorum

open ReportHandler (Willing willing_reportLog)

namespace Engine

/-- An outcome that an engine tells of: a report that reaches the quorum for a reference slot, or
none any more. -/
structure Outcome where
  refSlot : Word
  report : Option Digest
deriving DecidableEq

namespace Outcome

/-- What is agreed on after an outcome. -/
def vote? (b : Outcome) : Option Vote := b.report.map (⟨b.refSlot, ·⟩)

/-- What an outcome takes back of what was agreed on before: nothing but a report for the same
reference slot. -/
def takesBack (b : Outcome) (agreed : Option Vote) : List Vote :=
  (agreed.filter fun v => v.refSlot = b.refSlot).toList

theorem takesBack_of_none {b : Outcome} {t : Tally} (h : t.agreedFor b.refSlot = none) :
    b.takesBack t.agreed = [] := by
  cases hagreed : t.agreed with
  | none => rfl
  | some v =>
    have hother : v.refSlot ≠ b.refSlot := by
      intro hslot
      simp [Tally.agreedFor, hagreed, hslot] at h
    simp [takesBack, Option.filter, hother]

theorem takesBack_of_some {b : Outcome} {t : Tally} {d : Digest}
    (h : t.agreedFor b.refSlot = some d) : b.takesBack t.agreed = [⟨b.refSlot, d⟩] := by
  rw [Tally.agreedFor_eq_some_iff.mp h]
  simp [takesBack, Option.filter]

end Outcome

/-- The outcome that an event tells of. -/
def Event.outcome? : Event → Option Outcome
  | .consensusReached refSlot report _ => some ⟨refSlot, some report⟩
  | .consensusLost refSlot => some ⟨refSlot, none⟩
  | _ => none

/-- The outcomes that events tell of, in their order. -/
def outcomesOf (events : List Event) : List Outcome := events.filterMap Event.outcome?

@[simp] theorem outcomesOf_append (events events' : List Event) :
    outcomesOf (events ++ events') = outcomesOf events ++ outcomesOf events' :=
  List.filterMap_append

theorem outcomesOf_eq_nil {events : List Event} (h : ∀ event ∈ events, event.isOutcome = false) :
    outcomesOf events = [] := by
  refine List.filterMap_eq_nil_iff.mpr fun event hmem => ?_
  have hquiet := h event hmem
  cases event <;> first | rfl | cases hquiet

end Engine

/-- The reports that events say were handed over, in their order. -/
def Oracle.submittedIn (events : List Oracle.Event) : List Vote :=
  events.filterMap Oracle.Event.submitted?

/-- The reports that events say were given back, in their order. -/
def Oracle.discardedIn (events : List Oracle.Event) : List Vote :=
  events.filterMap Oracle.Event.discarded?

namespace Oracle

@[simp] theorem submittedIn_append (events events' : List Event) :
    submittedIn (events ++ events') = submittedIn events ++ submittedIn events' :=
  List.filterMap_append

@[simp] theorem discardedIn_append (events events' : List Event) :
    discardedIn (events ++ events') = discardedIn events ++ discardedIn events' :=
  List.filterMap_append

variable {η : Type} {o : Oracle η} {refSlot deadline : Word} {report : Digest}

theorem submittedIn_taking : submittedIn (o.taking report refSlot deadline).events =
    submittedIn o.events ++ [⟨refSlot, report⟩] := by
  have hpassed : submittedIn (o.passedOver refSlot) = [] := by
    rw [passedOver]
    split <;> rfl
  rw [taking_events, submittedIn_append, submittedIn_append, hpassed]
  rfl

theorem discardedIn_taking : discardedIn (o.taking report refSlot deadline).events =
    discardedIn o.events := by
  have hpassed : discardedIn (o.passedOver refSlot) = [] := by
    rw [passedOver]
    split <;> rfl
  rw [taking_events, discardedIn_append, discardedIn_append, hpassed]
  exact List.append_nil _

end Oracle

namespace Engine

variable {η φ : Type} {e e₁ e' : Engine (Oracle η)} {now : Word} {c : Command (Oracle η)}
  {outcomes outcomes' : List Outcome} {submitted submitted' discarded discarded' : List Vote}

/-! ### What is told -/

/-- What an engine and its oracle tell of outcomes and of reports, beyond what they told before. -/
structure Tells (e e' : Engine (Oracle η)) (outcomes : List Outcome)
    (submitted discarded : List Vote) : Prop where
  outcomes : outcomesOf e'.events = outcomesOf e.events ++ outcomes
  submitted : Oracle.submittedIn e'.processor.events =
    Oracle.submittedIn e.processor.events ++ submitted
  discarded : Oracle.discardedIn e'.processor.events =
    Oracle.discardedIn e.processor.events ++ discarded

namespace Tells

theorem refl : e.Tells e [] [] [] :=
  ⟨(List.append_nil _).symm, (List.append_nil _).symm, (List.append_nil _).symm⟩

theorem trans (h : e.Tells e₁ outcomes submitted discarded)
    (h' : e₁.Tells e' outcomes' submitted' discarded') :
    e.Tells e' (outcomes ++ outcomes') (submitted ++ submitted') (discarded ++ discarded') where
  outcomes := by rw [h'.outcomes, h.outcomes, List.append_assoc]
  submitted := by rw [h'.submitted, h.submitted, List.append_assoc]
  discarded := by rw [h'.discarded, h.discarded, List.append_assoc]

/-- Events that tell of no outcome, without any of the oracle, tell nothing. -/
theorem of_quiet (h : e.Quiet e₁) (hp : e₁.processor = e.processor) : e.Tells e₁ [] [] [] := by
  obtain ⟨events, heq, hquiet⟩ := h
  refine ⟨?_, ?_, ?_⟩
  · rw [heq, outcomesOf_append, outcomesOf_eq_nil hquiet]
  · rw [hp, List.append_nil]
  · rw [hp, List.append_nil]

end Tells

/-- What a call deals between an engine and its oracle: nothing, or one outcome for a reference slot
after the oracle's mark. Then the oracle was handed the report of the outcome, and it has given back
what the outcome takes back. -/
inductive Dealt (e e' : Engine (Oracle η)) : Prop
  | nothing (told : e.Tells e' [] [] []) (agreed : e'.tally.agreed = e.tally.agreed)
  | outcome (b : Outcome) (unprocessed : e.processor.processingSlot < b.refSlot)
      (told : e.Tells e' [b] b.vote?.toList (b.takesBack e.tally.agreed))
      (agreed : e'.tally.agreed = b.vote?)

namespace Dealt

theorem refl : e.Dealt e := .nothing .refl rfl

/-- What comes before the settlement of a call tells nothing. -/
theorem of_quiet (hquiet : e.Quiet e₁) (hkeeps : e.Keeps e₁) (h : e₁.Dealt e') : e.Dealt e' := by
  have htold := Tells.of_quiet hquiet hkeeps.processor
  cases h with
  | nothing told agreed => exact .nothing (htold.trans told) (agreed.trans hkeeps.agreed)
  | outcome b unprocessed told agreed =>
    rw [hkeeps.processor] at unprocessed
    rw [hkeeps.agreed] at told
    exact .outcome b unprocessed (htold.trans told) agreed

end Dealt

/-! ### Calls -/

namespace Mirrored

variable [ReportHandler η φ]

/-- An oracle that has given back what it was handed for a slot tells of it. -/
theorem told_withdrawn (h : e.Mirrored) {refSlot : Word} {p : Oracle η}
    (hp : e.Withdrawn now refSlot p) (report : Option Digest) :
    Oracle.submittedIn p.events = Oracle.submittedIn e.processor.events ∧
      Oracle.discardedIn p.events = Oracle.discardedIn e.processor.events ++
        Outcome.takesBack ⟨refSlot, report⟩ e.tally.agreed := by
  cases hp with
  | nothing hnone =>
    rw [Outcome.takesBack_of_none hnone, List.append_nil]
    exact ⟨rfl, rfl⟩
  | accepted held hdiscard =>
    obtain ⟨-, handler, rfl⟩ := Oracle.eq_of_discard_eq_ok (h.held_of_agreedFor held) hdiscard
    rw [Outcome.takesBack_of_some held]
    constructor
    · exact (Oracle.submittedIn_append _ _).trans (List.append_nil _)
    · exact Oracle.discardedIn_append _ _

/-- Settling the votes has one outcome at most. -/
theorem dealt_settled (h : e.Mirrored) (hs : e.Settled now ⟨.ok (), e'⟩) : e.Dealt e' := by
  cases hs with
  | closed _ _ => exact .refl
  | unchanged _ _ => exact .refl
  | @lost f d p hopen _ held hp =>
    have hunlocked : ¬ f.refSlot ≤ e.processor.processingSlot := of_decide_eq_false hopen.unlocked
    obtain ⟨hsubmitted, hdiscarded⟩ := h.told_withdrawn (.accepted held hp) none
    refine .outcome ⟨f.refSlot, none⟩ (UInt64.not_le.mp hunlocked) ⟨?_, ?_, hdiscarded⟩ rfl
    · exact outcomesOf_append _ _
    · exact hsubmitted.trans (List.append_nil _).symm
  | @reached f v p q hopen _ _ hp hq =>
    have hunlocked : ¬ f.refSlot ≤ e.processor.processingSlot := of_decide_eq_false hopen.unlocked
    obtain ⟨hsubmitted, hdiscarded⟩ := h.told_withdrawn hp (some v.report)
    obtain ⟨-, rfl⟩ := Oracle.submit_eq_ok.mp hq
    refine .outcome ⟨f.refSlot, some v.report⟩ (UInt64.not_le.mp hunlocked) ⟨?_, ?_, ?_⟩ rfl
    · exact outcomesOf_append _ _
    · exact Oracle.submittedIn_taking.trans (congrArg (· ++ _) hsubmitted)
    · exact Oracle.discardedIn_taking.trans hdiscarded

/-- A call that does not replace the oracle has one outcome at most, and none if it is refused. -/
theorem dealt_perform (h : e.Mirrored) (hwilling : Willing η) (hc : c.replaces = false) :
    e.Dealt (e.perform now c).state := by
  have hperformed := e.performed now c
  cases hr : e.perform now c with
  | mk result e' =>
    cases result with
    | error err =>
      obtain rfl := h.eq_of_refused hwilling hr
      exact .refl
    | ok answer =>
      rw [hr] at hperformed
      cases hperformed with
      | amended hamends => exact .of_quiet hamends.quiet hamends.keeps .refl
      | settled hamends hs =>
        have h₁ := h.of_keeps hamends.keeps (hamends.named h.named)
        exact .of_quiet hamends.quiet hamends.keeps (h₁.dealt_settled hs)
      | replaced _ _ _ _ => cases hc

/-- Starting to process has no outcome. -/
theorem dealt_startProcessing (e : Engine (Oracle η)) (now : Word) :
    e.Dealt { e with processor := (e.processor.startProcessing (φ := φ) now).state } := by
  have hstarted := e.processor.started (φ := φ) now
  generalize e.processor.startProcessing (φ := φ) now = r at hstarted
  cases hstarted with
  | refused _ => exact .refl
  | handlerRefused _ =>
    have htold : e.Tells e [] [] [] := .refl
    exact .nothing ⟨htold.outcomes, htold.submitted, htold.discarded⟩ rfl
  | started _ _ _ _ =>
    refine .nothing ⟨(List.append_nil _).symm, ?_, ?_⟩ rfl
    · exact Oracle.submittedIn_append _ _
    · exact Oracle.discardedIn_append _ _

end Mirrored

end Engine

/-! ### Steps of a script -/

namespace Node

/-- The event, if it is one of the engine. -/
def Event.engine? : Event → Option Engine.Event
  | .engine event => some event
  | .oracle _ => none

/-- The event, if it is one of the oracle. -/
def Event.oracle? : Event → Option Oracle.Event
  | .engine _ => none
  | .oracle event => some event

/-- The outcomes that the events of a node tell of. -/
def outcomes (events : List Event) : List Engine.Outcome :=
  Engine.outcomesOf (events.filterMap Event.engine?)

/-- The reports that the oracle of a node was handed, as its events tell. -/
def submitted (events : List Event) : List Vote :=
  Oracle.submittedIn (events.filterMap Event.oracle?)

/-- The reports that the oracle of a node has given back, as its events tell. -/
def discarded (events : List Event) : List Vote :=
  Oracle.discardedIn (events.filterMap Event.oracle?)

section Append

variable (events events' : List Event) (n : Node)

@[simp] theorem outcomes_append :
    outcomes (events ++ events') = outcomes events ++ outcomes events' := by
  simp [outcomes]

@[simp] theorem submitted_append :
    submitted (events ++ events') = submitted events ++ submitted events' := by
  simp [submitted]

@[simp] theorem discarded_append :
    discarded (events ++ events') = discarded events ++ discarded events' := by
  simp [discarded]

theorem engine_pending : n.pending.filterMap Event.engine? = n.engine.events := by
  simp [pending, List.filterMap_map, Function.comp_def, Event.engine?]

theorem oracle_pending : n.pending.filterMap Event.oracle? = n.oracle.events := by
  simp [pending, List.filterMap_map, Function.comp_def, Event.oracle?]

end Append

end Node

namespace Simulation

open Scenario (Step)

variable {s s' : State} {step : Step}

/-- A step of a script has one outcome at most. -/
theorem dealt_taken (h : s.node.engine.Mirrored) (htaken : Taken s step s') :
    s.node.engine.Dealt s'.node.engine := by
  cases htaken with
  | rested now => exact .refl
  | called c hc =>
    exact h.dealt_perform willing_reportLog (Engine.Command.not_replaces_of_isBallot hc)
  | replanned epochs slots => exact h.dealt_perform willing_reportLog rfl
  | started => exact Engine.Mirrored.dealt_startProcessing _ _

/-- Between two steps of a play all events have been fetched, so what a step tells is all that is
pending after it. -/
theorem Progress.Rested.told {p : Progress} (h : p.Rested) {outcomes : List Engine.Outcome}
    {submitted discarded : List Vote}
    (htells : p.state.node.engine.Tells (apply p.state step).state.node.engine outcomes submitted
      discarded) :
    Node.outcomes (apply p.state step).state.node.pending = outcomes ∧
      Node.submitted (apply p.state step).state.node.pending = submitted ∧
      Node.discarded (apply p.state step).state.node.pending = discarded := by
  obtain ⟨hengine, horacle⟩ := h.events_eq_nil
  change p.state.node.engine.processor.events = [] at horacle
  rw [Node.outcomes, Node.submitted, Node.discarded, Node.engine_pending, Node.oracle_pending,
    Node.oracle, htells.outcomes, htells.submitted, htells.discarded, hengine, horacle]
  exact ⟨rfl, rfl, rfl⟩

end Simulation

end ReportQuorum
