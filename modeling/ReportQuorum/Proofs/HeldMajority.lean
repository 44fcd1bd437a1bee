import ReportQuorum.Proofs.Plays
import ReportQuorum.Proofs.Upkeep

/-!
# The oracle of a node holds the majority

Throughout a play on a clock that does not go back, whatever its steps, the oracle holds for the
current reference slot the report that has the votes it needs, and no other, until the deadline or
until it starts to process.

## Main results

* `Node.upToDate_of_create`, `Simulation.upToDate_next`: the oracle of a node is up to date from the
  beginning, and every step keeps it so
* `Simulation.held_iff_reaches`: what the oracle of a node holds
-/

namespace ReportQuorum

namespace Node

variable {c : Config} {now : Word} {n : Node}

/-- The oracle of a new node is up to date. -/
theorem upToDate_of_create (h : create c now = .ok n) : n.engine.UpToDate now := by
  refine invariant_of_create (I := fun e => e.UpToDate now) ?_ ?_ ?_ h
  · intro o e ho he
    have hcreated := Engine.created_of_create he
    have hmirrored := mirrored_of_engine_create ho he
    have hbound : e.Bound e.processor := by
      refine ⟨hmirrored.bound, hmirrored.grid, ?_⟩
      have hmade := Oracle.created_of_create ho
      rw [hcreated.processor, hmade.processingSlot, hmade.report]
      exact UInt64.le_refl _
    exact (hcreated.tallied hbound now).upToDate hmirrored
  · exact fun _ _ hc _ he => he.perform hc
  · exact fun _ _ hmarks he => he.of_marks hmarks

/-- The seats of a new node tell what accepted calls tell. -/
theorem faithful_of_create (h : create c now = .ok n) : ∃ cs, n.engine.Faithful cs := by
  refine invariant_of_create (I := fun e => ∃ cs, e.Faithful cs) ?_ ?_ ?_ h
  · exact fun _ _ _ he => ⟨[], Engine.faithful_of_create he⟩
  · exact fun e c _ _ ⟨cs, he⟩ => ⟨_, he.act now (.call c)⟩
  · exact fun _ _ _ ⟨cs, he⟩ => ⟨cs, he.congr rfl rfl he.named⟩

end Node

namespace Simulation

open Scenario (Step)

variable {s : State} {step : Step} {steps : List Step}

/-- Fetching the events leaves the oracle up to date. -/
theorem upToDate_drained {n : Node} {now : Word} (h : n.engine.UpToDate now) :
    n.drained.engine.UpToDate now :=
  (h.of_marks (o := n.oracle.drained) ⟨rfl, rfl, rfl, .inl rfl⟩).drained

/-- A step that does not move the clock back keeps the oracle up to date. -/
theorem upToDate_next (h : s.node.engine.UpToDate s.now) (hnow : s.now ≤ (s.next step).now) :
    (s.next step).node.engine.UpToDate (s.next step).now := by
  obtain ⟨s', htaken, hnext⟩ := taken_next s step
  rw [hnext] at hnow ⊢
  refine upToDate_drained ?_
  cases htaken with
  | rested now => exact h.mono hnow
  | called c hc => exact h.perform (Engine.Command.not_replaces_of_isBallot hc)
  | replanned epochs slots => exact h.perform rfl
  | started =>
    have htended : s.node.engine.processor.Tended (φ := Empty) s.now
        (s.node.engine.processor.startProcessing (φ := Empty) s.now).state :=
      .performed .startProcessing rfl
    exact h.of_marks htended.marks

theorem faithful_next (h : ∃ cs, s.node.engine.Faithful cs) :
    ∃ cs, (s.next step).node.engine.Faithful cs := by
  obtain ⟨s', htaken, hnext⟩ := taken_next s step
  obtain ⟨cs, h⟩ := h
  suffices hstate : ∃ cs, s'.node.engine.Faithful cs by
    obtain ⟨cs, hstate⟩ := hstate
    rw [hnext]
    exact ⟨cs, hstate.congr rfl rfl hstate.named⟩
  cases htaken with
  | rested now => exact ⟨cs, h⟩
  | called c hc => exact ⟨_, h.act s.now (.call c)⟩
  | replanned epochs slots => exact ⟨_, h.act s.now (.call _)⟩
  | started => exact ⟨cs, h.congr rfl rfl h.named⟩

theorem upToDate_after (h : s.node.engine.UpToDate s.now) (hforward : s.Forward steps) :
    (s.after steps).node.engine.UpToDate (s.after steps).now := by
  induction steps generalizing s with
  | nil => exact h
  | cons step steps ih => exact ih (upToDate_next h hforward.1) hforward.2

theorem faithful_after (h : ∃ cs, s.node.engine.Faithful cs) (steps : List Step) :
    ∃ cs, (s.after steps).node.engine.Faithful cs := by
  induction steps generalizing s with
  | nil => exact h
  | cons step steps ih => exact ih (faithful_next h)

section Play

variable {c : Node.Config} {now : Word} {n : Node}

/-- The oracle of a node is up to date after every play on a clock that does not go back. -/
theorem upToDate_play (h : Node.create c now = .ok n)
    (hforward : (Progress.start now n).state.Forward steps) :
    ((Progress.start now n).play 0 steps).state.node.engine.UpToDate
      ((Progress.start now n).play 0 steps).state.now := by
  rw [play_state]
  exact upToDate_after (upToDate_drained (Node.upToDate_of_create h)) hforward

/-- The seats of a node tell what accepted calls tell, after every play. -/
theorem faithful_play (h : Node.create c now = .ok n) (steps : List Step) :
    ∃ cs, ((Progress.start now n).play 0 steps).state.node.engine.Faithful cs := by
  rw [play_state]
  refine faithful_after ?_ steps
  obtain ⟨cs, hnew⟩ := Node.faithful_of_create h
  exact ⟨cs, hnew.congr rfl rfl hnew.named⟩

end Play

/-- After every play on a clock that does not go back, unless the deadline of the current frame has
passed or its report is being processed, the oracle holds a report for the current reference slot
exactly if the report has as many votes as it needs. The number of members is one that fits a
word. -/
theorem held_iff_reaches {c : Node.Config} {now : Word} {n : Node} (h : Node.create c now = .ok n)
    {steps : List Step} (hforward : (Progress.start now n).state.Forward steps) :
    let s := ((Progress.start now n).play 0 steps).state
    ∀ f, s.node.engine.schedule.frameAt s.now = .ok f →
      ReportProcessor.isProcessing s.node.oracle f.refSlot = false →
      s.node.engine.schedule.grid.slotAt s.now ≤ f.deadlineSlot →
      s.node.engine.roster.size < UInt64.size → ∀ d, d ≠ Octets.zero →
        (s.node.oracle.report.refSlot = f.refSlot ∧ s.node.oracle.report.report = d ↔
          s.node.engine.Reaches ⟨f.refSlot, d⟩) := by
  intro s f hf hidle htimely hsize d hd
  have hupToDate : s.node.engine.UpToDate s.now := upToDate_play h hforward
  obtain ⟨cs, hcs⟩ : ∃ cs, s.node.engine.Faithful cs := faithful_play h steps
  rw [← hupToDate.listed.winner_iff hf hcs hsize hd,
    ← hupToDate.held_iff_winner ⟨hf, htimely, hidle⟩, Oracle.held_eq_some]
  constructor
  · exact fun ⟨hslot, hreport⟩ => ⟨hslot, hreport, hd⟩
  · exact fun ⟨hslot, hreport, _⟩ => ⟨hslot, hreport⟩

/-- When two of three members name a report, and then one of them and the third another one, the
oracle holds the other one. -/
theorem held_after_flip :
    let member (i : Nat) : Address := .ofLowByte (.ofNat (i + 1))
    let c := Node.Config.sample member 3
    let first := Octets.replicate 32 7
    let second := Octets.replicate 32 8
    let steps : List Step :=
      [.submitReport (member 0) first none none, .submitReport (member 1) first none none,
        .advanceSlots 5, .submitReport (member 1) second none none,
        .submitReport (member 2) second none none]
    ∃ n, Node.create c c.startTime = .ok n ∧
      (Progress.start c.startTime n).state.Forward steps ∧
      let s := ((Progress.start c.startTime n).play 0 steps).state
      s.node.oracle.report.refSlot = 31 ∧ s.node.oracle.report.report = second := by
  intro member c first second steps
  let final (n : Node) : State := ((Progress.start c.startTime n).play 0 steps).state
  have hplay : (Node.create c c.startTime).toOption.any (fun n => decide (
      (Progress.start c.startTime n).state.Forward steps ∧
        ((final n).node.engine.schedule.frameAt (final n).now).toOption = some ⟨0, 31, 7231⟩ ∧
        ReportProcessor.isProcessing (final n).node.oracle 31 = false ∧
        (final n).node.engine.schedule.grid.slotAt (final n).now ≤ 7231 ∧
        (final n).node.engine.roster.size < UInt64.size ∧
        max 1 (final n).node.engine.quorum.toNat ≤
          (final n).node.engine.roster.votesFor ⟨31, second⟩)) = true := by
    decide +kernel
  obtain ⟨n, hmade, hforward, hf, hidle, htimely, hsize, hreaches⟩ := exists_of_any hplay
  refine ⟨n, hmade, hforward, ?_⟩
  exact (held_iff_reaches hmade hforward ⟨0, 31, 7231⟩ (toOption_eq_some.mp hf) hidle htimely
    hsize second (by decide)).mpr hreaches

end Simulation

end ReportQuorum
