import ReportQuorum.Proofs.Plays
import ReportQuorum.Proofs.Refusals
import ReportQuorum.Proofs.Reopening

/-!
# Steps that a node refuses

Engine and oracle of a node agree on what is handed over, so the oracle takes whatever report is to
follow one that it has given back. Hence no refused step has got half-way: it leaves no trace but the
note that it was refused, and a script without its refused steps plays the same.

## Main definitions

* `Scenario.without`: a scenario without the steps at certain positions

## Main results

* `Engine.Mirrored.eq_of_refused`: a refused call leaves an engine and its oracle as they were
* `Simulation.apply_refused`: so does a refused step of a script
* `Simulation.refused_without_trace`: what refused steps leave in a play, and the play without them
-/

namespace ReportQuorum

open ReportHandler (Willing willing_reportLog)

namespace Oracle

variable {η φ : Type} [ReportHandler η φ] {o o' : Oracle η} {now refSlot : Word} {sender : Address}
  {err : Error φ}

/-- An oracle whose handler refuses nothing is left as it was by a discard that it refuses. -/
theorem discard_refused (hwilling : Willing η) (h : o.discard sender refSlot = ⟨.error err, o'⟩) :
    o' = o := by
  have hd := o.discarded (φ := φ) sender refSlot
  rw [h] at hd
  cases hd with
  | refused _ _ => rfl
  | handlerRefused hh =>
    have hok := hwilling.discarded o.handler o.report
    rw [hh] at hok
    cases hok

/-- An oracle whose handler refuses nothing is left as it was by a start that it refuses. -/
theorem startProcessing_refused (hwilling : Willing η)
    (h : o.startProcessing now = ⟨.error err, o'⟩) : o' = o := by
  have hs := o.started (φ := φ) now
  rw [h] at hs
  cases hs with
  | refused _ => rfl
  | handlerRefused hh =>
    have hok := hwilling.handle o.handler o.report o.processingSlot
    rw [hh] at hok
    cases hok

end Oracle

namespace Engine.Mirrored

variable {η φ : Type} [ReportHandler η φ] {e e' : Engine (Oracle η)} {now : Word}
  {c : Command (Oracle η)} {f : Frame} {d : Digest} {p q : Oracle η} {cause : Oracle.Error φ}
  {err : Error (Oracle.Error φ)}

/-- An oracle that agrees with its engine does not drop a report: it takes the one for which it has
made room. -/
theorem not_drops (h : e.Mirrored) : ¬ e.Drops now c f d p q cause := by
  intro hdrops
  obtain ⟨e₁, v, hover, hrefused⟩ := hdrops.refused
  have hkeeps := hover.amends.keeps
  have h₁ : e₁.Mirrored := h.of_keeps hkeeps (hover.amends.named h.named)
  have hhanded : e₁.tally.agreedFor f.refSlot = some d := by
    rw [Tally.agreedFor, hkeeps.agreed]
    exact hover.handed
  have hdiscarded := hdrops.discarded
  rw [← hkeeps.processor, ← hkeeps.address] at hdiscarded
  obtain ⟨hslot, -⟩ := Oracle.eq_of_discard_eq_ok (h₁.held_of_agreedFor hhanded) hdiscarded
  have hwithdrawn : e₁.Withdrawn now f.refSlot p := .accepted hhanded hdiscarded
  obtain ⟨-, -, -, ⟨hnone, -⟩ | ⟨hp, -⟩⟩ := h₁.held_of_withdrawn hwithdrawn
  · rw [hhanded] at hnone
    cases hnone
  · have haccepts := h₁.accepts_of_withdrawn hover.isOpen hover.winner hwithdrawn hp
    rw [hkeeps.address] at haccepts
    have htaken := Oracle.submit_eq_ok (φ := φ) |>.mpr ⟨haccepts, rfl⟩
    exact absurd (hrefused.symm.trans htaken) (by simp)

/-- A refused call leaves an engine and its oracle as they were. -/
theorem eq_of_refused (h : e.Mirrored) (hwilling : Willing η)
    (hc : e.perform now c = ⟨.error err, e'⟩) : e' = e := by
  obtain ⟨hrefused, heq⟩ := refused hc
  have hprocessor : e'.processor = e.processor := by
    generalize e'.processor = p at hrefused
    cases hrefused with
    | unasked _ => rfl
    | withdrawal hp => exact Oracle.discard_refused hwilling hp
    | handover hq => exact Oracle.submit_refused hq
    | dropped hdrops => exact absurd hdrops h.not_drops
  rw [← heq, hprocessor]

end Engine.Mirrored

namespace Scenario

/-- The steps of a script that do not stand at certain positions, counted from a first one. -/
def leaveOut (positions : List Nat) (first : Nat) (steps : List Step) : List Step :=
  ((steps.zipIdx first).filter fun x => x.2 ∉ positions).map Prod.fst

/-- A scenario without the steps at certain positions. -/
def without (s : Scenario) (positions : List Nat) : Scenario :=
  { s with steps := leaveOut positions 0 s.steps }

variable {positions : List Nat} {first : Nat}

theorem leaveOut_cons_of_mem (step : Step) (steps : List Step) (h : first ∈ positions) :
    leaveOut positions first (step :: steps) = leaveOut positions (first + 1) steps := by
  rw [leaveOut, List.zipIdx_cons, List.filter_cons_of_neg (by simpa using h), leaveOut]

theorem leaveOut_cons_of_notMem (step : Step) (steps : List Step) (h : first ∉ positions) :
    leaveOut positions first (step :: steps) =
      step :: leaveOut positions (first + 1) steps := by
  rw [leaveOut, List.zipIdx_cons, List.filter_cons_of_pos (by simpa using h), List.map_cons,
    leaveOut]

/-- A position before the first one makes no difference. -/
theorem leaveOut_cons_position {position : Nat} (h : position < first) (positions : List Nat)
    (steps : List Step) :
    leaveOut (position :: positions) first steps = leaveOut positions first steps := by
  refine congrArg (List.map Prod.fst) (List.filter_congr fun x hx => ?_)
  have hle := List.le_snd_of_mem_zipIdx hx
  have hne : x.2 ≠ position := by omega
  simp [hne]

end Scenario

namespace Simulation

open Scenario (Step)

/-! ### One step -/

variable {s s' : State} {step : Step} {cause : Node.Error}

/-- A refused call of the engine leaves the state as it was. -/
theorem afterEngine_refused (h : s.node.engine.Mirrored) {c : Engine.Command (Oracle ReportLog)}
    {r : Reply (Engine.Error (Oracle.Error Empty)) (Engine (Oracle ReportLog)) Unit}
    (hr : s.node.engine.perform s.now c = Engine.perform.answerNone r)
    (hs : s.afterEngine r = ⟨.error cause, s'⟩) : s' = s := by
  obtain ⟨result, e'⟩ := r
  cases result with
  | ok u => cases hs
  | error err =>
    obtain rfl := h.eq_of_refused willing_reportLog hr
    cases hs
    rfl

/-- A refused start of the oracle leaves the state as it was. -/
theorem afterOracle_refused
    (hs : s.afterOracle (s.node.engine.processor.startProcessing s.now) = ⟨.error cause, s'⟩) :
    s' = s := by
  cases hr : s.node.engine.processor.startProcessing (φ := Empty) s.now with
  | mk result o' =>
    rw [hr] at hs
    cases result with
    | ok previous => cases hs
    | error err =>
      obtain rfl := Oracle.startProcessing_refused willing_reportLog hr
      cases hs
      rfl

/-- A refused step leaves the engine, the oracle with its handler and the clock as they were. -/
theorem apply_refused (h : s.node.engine.Mirrored) (hs : apply s step = ⟨.error cause, s'⟩) :
    s' = s := by
  have hreply := replied_apply s step
  generalize apply s step = reply at hreply hs
  cases hreply with
  | moved now => cases hs
  | frameless fault =>
    cases hs
    rfl
  | called hc hr => exact afterEngine_refused h hr hs
  | replanned epochs slots =>
    exact afterEngine_refused h (c := .setFrameConfig _ _ _) rfl hs
  | started => exact afterOracle_refused hs

/-! ### Plays -/

/-- What a play of a node is like between two steps: engine and oracle agree, and all events have
been fetched. -/
structure Progress.Rested (p : Progress) : Prop where
  mirrored : p.state.node.engine.Mirrored
  fetched : p.state.node.drained = p.state.node

namespace Progress

variable {p : Progress}

theorem rested_start {c : Node.Config} {now : Word} {n : Node} (h : Node.create c now = .ok n) :
    (start now n).Rested :=
  ⟨mirrored_drained (Node.mirrored_of_create h), rfl⟩

namespace Rested

theorem next (h : p.Rested) (index : Nat) (step : Step) : (p.next index step).Rested :=
  ⟨mirrored_next h.mirrored, rfl⟩

theorem play (h : p.Rested) (index : Nat) (steps : List Step) : (p.play index steps).Rested := by
  induction steps generalizing p index with
  | nil => exact h
  | cons step steps ih => exact ih (h.next index step) (index + 1)

/-- Nothing is left to be fetched on either side. -/
theorem events_eq_nil (h : p.Rested) :
    p.state.node.engine.events = [] ∧ p.state.node.oracle.events = [] := by
  rw [← h.fetched]
  exact ⟨rfl, rfl⟩

/-- A refused step leaves no trace in a play but the note that it was refused. -/
theorem next_of_refused (h : p.Rested) (index : Nat)
    (hstep : (apply p.state step).result = .error cause) :
    apply p.state step = ⟨.error cause, p.state⟩ ∧
      p.next index step = { p with rejected := p.rejected ++ [⟨index, step, cause⟩] } := by
  have hstate : (apply p.state step).state = p.state :=
    apply_refused h.mirrored (congrArg (Reply.mk · (apply p.state step).state) hstep)
  have hpending : p.state.node.pending = [] := by
    rw [Node.pending, h.events_eq_nil.1, h.events_eq_nil.2]
    rfl
  refine ⟨?_, ?_⟩
  · generalize apply p.state step = reply at hstep hstate
    obtain ⟨result, s'⟩ := reply
    cases hstep
    cases hstate
    rfl
  · rw [Progress.next, hstep, hstate, h.fetched, hpending, List.append_nil]

end Rested

/-- Of a play and its copy with other notes, the next states and events are the same. -/
theorem next_of_accepted (rejected : List Rejection) (index index' : Nat)
    (hstep : (apply p.state step).result = .ok ()) :
    (p.next index step).rejected = p.rejected ∧
      { p with rejected }.next index' step = { p.next index step with rejected } := by
  simp [Progress.next, hstep]

end Progress

variable {p : Progress} {steps : List Step}

/-- A step that was noted as refused stands at its position in the script, was refused for the cause
noted, and left the play as it was. -/
theorem Progress.Rested.noted (h : p.Rested) (index : Nat) {r : Rejection}
    (hr : r ∈ (p.play index steps).rejected) :
    r ∈ p.rejected ∨ ∃ k, r.index = index + k ∧ steps[k]? = some r.step ∧
      let before := p.play index (steps.take k)
      apply before.state r.step = ⟨.error r.cause, before.state⟩ ∧
        p.play index (steps.take (k + 1)) =
          { before with rejected := before.rejected ++ [r] } := by
  induction steps generalizing p index with
  | nil => exact .inl hr
  | cons step steps ih =>
    obtain hearly | ⟨k, hindex, hget, happly, hplay⟩ := ih (h.next index step) (index + 1) hr
    · cases hstep : (apply p.state step).result with
      | ok u =>
        rw [(Progress.next_of_accepted [] index 0 hstep).1] at hearly
        exact .inl hearly
      | error cause =>
        -- The first step may be the one that was noted.
        obtain ⟨happly, hnext⟩ := h.next_of_refused index hstep
        rw [hnext] at hearly
        obtain hold | hnew := List.mem_append.mp hearly
        · exact .inl hold
        · rw [List.mem_singleton] at hnew
          subst hnew
          exact .inr ⟨0, rfl, rfl, happly, hnext⟩
    · exact .inr ⟨k + 1, by omega, hget, happly, hplay⟩

/-- A play notes refused steps at positions not before the first. Without them the same script plays
to the same end, and nothing is noted. -/
theorem Progress.Rested.play_leaveOut (h : p.Rested) (index : Nat) (steps : List Step) :
    ∃ noted : List Rejection, (p.play index steps).rejected = p.rejected ++ noted ∧
      (∀ r ∈ noted, index ≤ r.index) ∧
      ∀ index', { p with rejected := [] }.play index'
          (Scenario.leaveOut (noted.map Rejection.index) index steps) =
        { p.play index steps with rejected := [] } := by
  induction steps generalizing p index with
  | nil =>
    exact ⟨[], (List.append_nil _).symm, fun r hr => absurd hr List.not_mem_nil, fun _ => rfl⟩
  | cons step steps ih =>
    obtain ⟨noted, hnoted, hlater, hplay⟩ := ih (h.next index step) (index + 1)
    cases hstep : (apply p.state step).result with
    | ok u =>
      -- Only later steps are left out, so this one stays and leads to the same state.
      have hfirst : index ∉ noted.map Rejection.index := by
        intro hmem
        obtain ⟨r, hr, hindex⟩ := List.mem_map.mp hmem
        have hle := hlater r hr
        omega
      obtain ⟨hrejected, -⟩ := Progress.next_of_accepted [] index 0 hstep
      refine ⟨noted, ?_, fun r hr => Nat.le_of_succ_le (hlater r hr), fun index' => ?_⟩
      · rw [Progress.play, hnoted, hrejected]
      · rw [Scenario.leaveOut_cons_of_notMem step steps hfirst, Progress.play,
          (Progress.next_of_accepted [] index index' hstep).2, Progress.play]
        exact hplay (index' + 1)
    | error cause =>
      obtain ⟨-, hnext⟩ := h.next_of_refused index hstep
      rw [hnext] at hnoted hplay
      refine ⟨⟨index, step, cause⟩ :: noted, ?_, ?_, fun index' => ?_⟩
      · rw [Progress.play, hnext, hnoted, List.append_assoc, List.singleton_append]
      · intro r hr
        obtain rfl | hr := List.mem_cons.mp hr
        · exact Nat.le_refl _
        · exact Nat.le_of_succ_le (hlater r hr)
      · -- The later steps stand at later positions than the one that is left out.
        rw [List.map_cons, Scenario.leaveOut_cons_of_mem step steps (List.mem_cons_self ..),
          Scenario.leaveOut_cons_position index.lt_succ_self, Progress.play, hnext]
        exact hplay index'

/-- In a play against a new node, each step that is noted as refused stands at its position in the
script and was refused by the state that the play had come to; it left that state as it was, with
engine, oracle, handler and clock, and told of no event. The scenario without the refused steps plays
to the same time, agreement, report and events, and nothing is refused. -/
theorem refused_without_trace {c : Node.Config} {s : Scenario} {n : Node}
    (h : Node.create c (s.startTime.getD c.startTime) = .ok n) :
    let start := Progress.start (s.startTime.getD c.startTime) n
    let final := start.play 0 s.steps
    run c s = .ok final.report ∧
      (∀ r ∈ final.rejected, s.steps[r.index]? = some r.step ∧
        let before := start.play 0 (s.steps.take r.index)
        apply before.state r.step = ⟨.error r.cause, before.state⟩ ∧
          start.play 0 (s.steps.take (r.index + 1)) =
            { before with rejected := before.rejected ++ [r] }) ∧
      run c (s.without (final.rejected.map (·.index))) =
        .ok { final.report with rejected := [] } := by
  intro start final
  have hrested : start.Rested := Progress.rested_start h
  refine ⟨?_, ?_, ?_⟩
  · rw [run, h]
    rfl
  · intro r hr
    obtain hnone | ⟨k, hindex, hnoted⟩ := hrested.noted 0 hr
    · cases hnone
    · rw [Nat.zero_add] at hindex
      rw [hindex]
      exact hnoted
  · obtain ⟨noted, hrejected, -, hplay⟩ := hrested.play_leaveOut 0 s.steps
    have hnoted : final.rejected = noted := hrejected
    have hsame : start.play 0 (s.without (final.rejected.map (·.index))).steps =
        { final with rejected := [] } := by
      rw [hnoted]
      exact hplay 0
    rw [run]
    change (Node.create c (s.startTime.getD c.startTime) >>= fun node => _) = _
    rw [h]
    exact congrArg (fun p => Except.ok p.report) hsame

/-- A start without a report, a vote repeated and a quorum of zero are refused; without them the
script plays the same. -/
theorem same_without_three_refused :
    let c := Node.Config.sample (fun i => .ofLowByte (.ofNat (i + 1))) 1
    let vote : Step := .submitReport (.ofLowByte 1) (Octets.replicate 32 7) none none
    let s : Scenario := ⟨none, [.startProcessing, vote, vote, .startProcessing, .setQuorum 0]⟩
    ∃ report, run c s = .ok report ∧ report.rejected.map (·.index) = [0, 2, 4] ∧
      run c ⟨none, [vote, .startProcessing]⟩ = .ok { report with rejected := [] } := by
  intro c vote s
  let now := s.startTime.getD c.startTime
  have hplay : (Node.create c now).toOption.any (fun n => decide (
      ((Progress.start now n).play 0 s.steps).rejected.map (·.index) = [0, 2, 4])) = true := by
    decide +kernel
  obtain ⟨n, hmade, hrejected⟩ := exists_of_any hplay
  obtain ⟨hrun, -, hwithout⟩ := refused_without_trace hmade
  generalize (Progress.start now n).play 0 s.steps = final at hrejected hrun hwithout
  rw [hrejected] at hwithout
  exact ⟨final.report, hrun, hrejected, hwithout⟩

end Simulation

end ReportQuorum
