import ReportQuorum.Proofs.HeldMajority

/-!
# Reports that wait to be processed

A report waits in the oracle of a node from the time it is handed over until it is withdrawn or
started. It keeps the deadline that its frame had at first, while the frames may be laid out anew.
So a step of a play, as far as a report that waits after it goes, lets time pass at most, or hands
over the report, or changes the layout under it.

## Main definitions

* `Oracle.Awaits`: a report waits to be processed
* `Simulation.Spares`, `Simulation.JustHanded`: what a step does if a report waits after it
* `Simulation.Amid`: a step of a script met a condition in the state before it

## Main results

* `Engine.Performed.pending`: what a call leaves pending in the oracle
* `Simulation.spares_or_justHanded`: a step does nothing else
* `Simulation.holds_or_amid`: what holds of a report while it waits
* `Simulation.start_accepted_iff`: when a step that starts to process is accepted
-/

namespace ReportQuorum

namespace Oracle

variable {η φ : Type} {o o' : Oracle η}

/-- A report waits to be processed. -/
structure Awaits (o : Oracle η) : Prop where
  pending : o.report.report ≠ Octets.zero
  unmarked : o.processingSlot < o.report.refSlot

theorem Awaits.held (h : o.Awaits) : o.held = some ⟨o.report.refSlot, o.report.report⟩ :=
  held_eq_some.mpr ⟨rfl, rfl, h.pending⟩

theorem Awaits.ne_none (h : o.Awaits) : o.held ≠ none := by
  rw [h.held]
  exact nofun

/-- What waits after an oracle was left to itself has waited before. -/
theorem Awaits.of_marks (h : o'.Awaits) (hmarks : o.Marks o') : o.Awaits := by
  obtain ⟨hpending, hunmarked⟩ := h
  rw [hmarks.report] at hpending hunmarked
  refine ⟨hpending, ?_⟩
  obtain hsame | hmoved := hmarks.processingSlot
  · rwa [hsame] at hunmarked
  · rw [hmoved] at hunmarked
    exact absurd hunmarked (UInt64.lt_irrefl _)

/-- An oracle that is handed nothing holds what it held, if it holds anything. -/
theorem Served.withdrawn (h : Served (fun _ => False) o o') :
    o'.held = none ∨ o'.report = o.report := by
  obtain ⟨-, hheld⟩ | ⟨hfalse, -⟩ := h.report
  · exact hheld
  · exact hfalse.elim

end Oracle

namespace Engine

/-- A change of the layout is refused as a whole or lays out the frames anew. -/
theorem setFrameConfig_cases {π ε : Type} (e : Engine π) (now : Word) (caller : Address)
    (epochs slots : Word) :
    (∃ err, e.setFrameConfig (ε := ε) now caller epochs slots = ⟨.error err, e⟩) ∨
      ∃ e₁ change, e.setFrameConfig (ε := ε) now caller epochs slots = ⟨.ok (), e₁⟩ ∧
        e₁.processor = e.processor ∧
        e.schedule.reconfigure now epochs slots = .ok (e₁.schedule, change) := by
  rw [setFrameConfig]
  obtain ⟨err, -, herr⟩ | ⟨e₁, hok, hr⟩ := Reply.ofExcept_cases e _
  · exact .inl ⟨err, herr⟩
  · simp only [bind_eq_ok, mapError_eq_ok, demand_eq_ok] at hok
    obtain ⟨-, -, ⟨schedule, change⟩, hs, hok⟩ := hok
    obtain rfl := pure_eq_ok.mp hok
    exact .inr ⟨_, change, hr, by simp, by simpa using hs⟩

variable {η φ : Type} [ReportHandler η φ] {e e₁ : Engine (Oracle η)} {now : Word}
  {c : Command (Oracle η)}

/-- The oracle that a change leaves holds nothing, or what it held, or a report for the current
frame with the frame's deadline. -/
def Leaves (e : Engine (Oracle η)) (now : Word) (o : Oracle η) : Prop :=
  o.held = none ∨ o.report = e.processor.report ∨
    ∃ f, e.schedule.frameAt now = .ok f ∧ o.report.refSlot = f.refSlot ∧
      o.report.deadline = e.schedule.deadlineTime f

theorem Settled.leaves {r : Reply (Error (Oracle.Error φ)) (Engine (Oracle η)) Unit}
    (h : e.Settled now r) : e.Leaves now r.state.processor := by
  cases h with
  | withdrawalRefused _ _ hp => exact (Oracle.served_discard hp).withdrawn.imp_right .inl
  | lost _ _ _ hp => exact (Oracle.served_discard hp).withdrawn.imp_right .inl
  | handoverRefused _ _ _ hp hq =>
    obtain rfl := Oracle.submit_refused hq
    exact hp.served.withdrawn.imp_right .inl
  | @reached f v p q hopen _ _ _ hq =>
    obtain ⟨-, rfl⟩ := Oracle.submit_eq_ok.mp hq
    -- The only place where an oracle is handed a report.
    refine .inr (.inr ⟨f, hopen.current, ?_, ?_⟩)
    · exact congrArg Oracle.Report.refSlot Oracle.taking_report
    · exact congrArg Oracle.Report.deadline Oracle.taking_report
  | _ => exact .inr (.inl rfl)

theorem Amends.schedule_of_isBallot {settles : Bool} (h : e.Amends now c e₁ settles)
    (hc : c.isBallot = true) : e₁.schedule = e.schedule := by
  cases h with
  | addMember _ _ _ => simp [emit]
  | removeMember _ _ _ => simp [emit]
  | setQuorum _ => simp
  | disableConsensus _ => simp
  | submitReport _ => rfl
  | _ => cases hc

/-- A call about votes or members keeps the frames. -/
theorem Performed.schedule_of_isBallot
    {r : Reply (Error (Oracle.Error φ)) (Engine (Oracle η)) (Option (Oracle η))}
    (h : e.Performed now c r) (hc : c.isBallot = true) : r.state.schedule = e.schedule := by
  cases h with
  | amended hamends => exact hamends.schedule_of_isBallot hc
  | settled hamends hs => exact hs.sameVotes.schedule.trans (hamends.schedule_of_isBallot hc)
  | _ => rfl

theorem Performed.leaves
    {r : Reply (Error (Oracle.Error φ)) (Engine (Oracle η)) (Option (Oracle η))}
    (h : e.Performed now c r) (hc : c.isBallot = true) : e.Leaves now r.state.processor := by
  have hcongr : ∀ {e₁ settles} {o : Oracle η}, e.Amends now c e₁ settles → e₁.Leaves now o →
      e.Leaves now o := by
    intro e₁ settles o hamends hleaves
    rwa [Leaves, hamends.keeps.processor, hamends.schedule_of_isBallot hc] at hleaves
  cases h with
  | refused _ => exact .inr (.inl rfl)
  | amended hamends => exact .inr (.inl (congrArg Oracle.report hamends.keeps.processor))
  | settled hamends hs => exact hcongr hamends hs.leaves
  | undone hamends hs => exact hcongr hamends hs.leaves
  | replaced _ _ _ _ => cases hc

/-- What is held has been voted about. -/
theorem UpToDate.voted (h : e.UpToDate now) (hawaits : e.processor.Awaits) :
    e.processor.report.refSlot ≤ e.tally.refSlot := by
  refine h.noted ⟨e.processor.report.refSlot, e.processor.report.report⟩ ?_
  rw [h.mirrored.agreed]
  exact hawaits.held

end Engine

namespace Node

variable {c : Config} {now : Word} {n : Node}

/-- Nobody has voted when a node is made. -/
theorem refSlot_of_create (h : create c now = .ok n) : n.engine.tally.refSlot = 0 := by
  refine invariant_of_create (I := fun e => e.tally.refSlot = 0) ?_ ?_ ?_ h
  · intro o e _ he
    rw [(Engine.created_of_create he).tally]
  · intro e c hc hvote he
    have hperformed := e.performed now c
    have hamends : ∀ e₁ settles, e.Amends now c e₁ settles → e₁.tally.refSlot = 0 := by
      intro e₁ settles hamends
      cases hamends with
      | submitReport _ => exact absurd rfl (hvote _ _ _)
      | _ => simpa [Engine.emit] using he
    generalize e.perform now c = r at hperformed
    cases hperformed with
    | refused _ => exact he
    | amended h => exact hamends _ _ h
    | settled h hs => exact hs.sameVotes.refSlot.trans (hamends _ _ h)
    | undone _ _ => exact he
    | replaced _ _ _ _ => cases hc
  · exact fun _ _ _ he => he

/-- Nothing waits in the oracle of a new node. -/
theorem not_awaits_of_create (h : create c now = .ok n) : ¬ n.oracle.Awaits := by
  intro hawaits
  have hvoted := (upToDate_of_create h).voted hawaits
  rw [refSlot_of_create h] at hvoted
  exact UInt64.not_lt.mpr hvoted (UInt64.lt_of_le_of_lt (UInt64.zero_le ..) hawaits.unmarked)

end Node

namespace Simulation

open Scenario (Step)
open ReportHandler (willing_reportLog)

variable {s : State} {step : Step} {steps : List Step}

/-- The oracle takes the start of processing exactly if a report waits whose deadline has not
passed. -/
theorem start_accepted_iff (h : s.node.engine.UpToDate s.now) :
    (apply s .startProcessing).result = .ok () ↔ s.node.oracle.Awaits ∧
      s.node.engine.schedule.grid.slotAt s.now ≤
        s.node.engine.schedule.grid.slotAt s.node.oracle.report.deadline := by
  let r := s.node.oracle.startProcessing (φ := Empty) s.now
  have hgrid : s.node.oracle.grid = s.node.engine.schedule.grid := h.bound.grid
  have hresult :
      (apply s .startProcessing).result = .ok () ↔ ∃ previous, r.result = .ok previous := by
    change (r.result.map fun _ => ()).mapError Node.Error.oracle = .ok () ↔ _
    rw [mapError_eq_ok]
    cases r.result <;> simp [Except.map]
  rw [hresult, ← hgrid]
  constructor
  · rintro ⟨previous, hok⟩
    have hstarted := s.node.oracle.started (φ := Empty) s.now
    change s.node.oracle.Started s.now r at hstarted
    generalize r = r' at hstarted hok
    cases hstarted with
    | refused _ => cases hok
    | handlerRefused _ => cases hok
    | started pending new timely _ =>
      have hle : s.node.oracle.processingSlot ≤ s.node.oracle.report.refSlot :=
        h.bound.processingSlot_le
      exact ⟨⟨pending, UInt64.lt_of_le_of_ne hle fun heq => new heq.symm⟩, timely⟩
  · rintro ⟨hawaits, htimely⟩
    exact ⟨_, Oracle.started_of_held willing_reportLog hawaits.held hawaits.unmarked htimely⟩

/-- A step that does not move the clock back does not bring back an earlier reference slot. -/
theorem past_next (hnow : s.now ≤ (s.next step).now) {r : Word} (h : s.node.engine.Past s.now r) :
    (s.next step).node.engine.Past (s.next step).now r := by
  obtain ⟨s', htaken, hnext⟩ := taken_next s step
  rw [hnext] at hnow ⊢
  suffices hstate : s'.node.engine.Past s'.now r from hstate.congr rfl
  cases htaken with
  | rested now => exact h.mono hnow
  | called c hc => exact h.performed (s.node.engine.performed s.now c)
  | replanned epochs slots => exact h.performed (s.node.engine.performed s.now _)
  | started => exact h.congr rfl

/-! ### Steps under which a report waits -/

/-- A step lays out the frames anew. -/
structure Replans (s : State) (step : Step) : Prop where
  layout : ∃ epochs slots change, step = .setFrameConfig epochs slots ∧
    s.node.engine.schedule.reconfigure s.now epochs slots =
      .ok ((s.next step).node.engine.schedule, change)
  accepted : (apply s step).result = .ok ()
  still : (s.next step).now = s.now

/-- A step leaves alone the report that waits, though time may pass or the frames may change. -/
structure Spares (s : State) (step : Step) : Prop where
  report : (s.next step).node.oracle.report = s.node.oracle.report
  awaits : s.node.oracle.Awaits
  frames : (s.next step).node.engine.schedule = s.node.engine.schedule ∨ Replans s step

theorem Spares.grid (h : Spares s step) :
    (s.next step).node.engine.schedule.grid = s.node.engine.schedule.grid := by
  obtain hschedule | hreplans := h.frames
  · rw [hschedule]
  · obtain ⟨_, _, _, -, hs⟩ := hreplans.layout
    exact (Schedule.reconfigure_eq_ok hs).2.1

/-- The report that the oracle holds was handed over for the current frame, with its deadline. -/
def JustHanded (s : State) : Prop :=
  ∃ f, s.node.engine.schedule.frameAt s.now = .ok f ∧ s.node.oracle.report.refSlot = f.refSlot ∧
    s.node.oracle.report.deadline = s.node.engine.schedule.deadlineTime f

/-- A call about votes or members spares what waits, or the report is just handed over. -/
theorem spares_of_called {c : Engine.Command (Oracle ReportLog)} (hc : c.isBallot = true)
    (hstate : (apply s step).state =
      { s with node.engine := (s.node.engine.perform s.now c).state })
    (h : (s.next step).node.oracle.Awaits) : Spares s step ∨ JustHanded (s.next step) := by
  have hperformed := s.node.engine.performed s.now c
  have hschedule : (s.next step).node.engine.schedule = s.node.engine.schedule := by
    rw [State.next, hstate]
    exact hperformed.schedule_of_isBallot hc
  have hmark : (s.next step).node.oracle.processingSlot = s.node.oracle.processingSlot := by
    have hserved := s.node.engine.served_perform s.now c
    rw [Engine.incumbent_eq (Engine.Command.not_replaces_of_isBallot hc)] at hserved
    rw [State.next, hstate]
    exact hserved.processingSlot
  have hleaves : s.node.engine.Leaves s.now (s.next step).node.oracle := by
    rw [State.next, hstate]
    exact hperformed.leaves hc
  obtain hnone | hsame | ⟨f, hf, hslot, hdeadline⟩ := hleaves
  · exact absurd hnone h.ne_none
  · refine .inl ⟨hsame, ?_, .inl hschedule⟩
    obtain ⟨hpending, hunmarked⟩ := h
    rw [hsame] at hpending hunmarked
    exact ⟨hpending, hmark ▸ hunmarked⟩
  · have hnow : (s.next step).now = s.now := by rw [State.next, hstate]
    refine .inr ⟨f, ?_, hslot, ?_⟩
    · rw [hschedule, hnow]
      exact hf
    · rw [hschedule]
      exact hdeadline

/-- A change of the layout spares what waits. -/
theorem spares_of_setFrameConfig {epochs slots : Word}
    (h : (s.next (.setFrameConfig epochs slots)).node.oracle.Awaits) :
    Spares s (.setFrameConfig epochs slots) := by
  have happly : apply s (.setFrameConfig epochs slots) = s.afterEngine
      (s.node.engine.setFrameConfig s.now s.node.admin epochs slots) := rfl
  obtain ⟨err, hr⟩ | ⟨e₁, change, hr, hprocessor, hs⟩ :=
    s.node.engine.setFrameConfig_cases (ε := Oracle.Error Empty) s.now s.node.admin epochs slots
  · rw [State.next, happly, hr] at h
    refine ⟨?_, ⟨h.pending, h.unmarked⟩, .inl ?_⟩
    · rw [State.next, happly, hr]
      rfl
    · rw [State.next, happly, hr]
      rfl
  · have hreport : (s.next (.setFrameConfig epochs slots)).node.oracle.report =
        s.node.oracle.report := by
      rw [State.next, happly, hr]
      change e₁.processor.report = s.node.engine.processor.report
      rw [hprocessor]
    rw [State.next, happly, hr] at h
    have hawaits : e₁.processor.Awaits := ⟨h.pending, h.unmarked⟩
    rw [hprocessor] at hawaits
    refine ⟨hreport, hawaits, .inr ⟨⟨epochs, slots, change, rfl, ?_⟩, ?_, rfl⟩⟩
    · rw [State.next, happly, hr]
      exact hs
    · rw [happly, hr]
      rfl

/-- If a report waits after a step, the step has spared it, or it was just handed over. -/
theorem spares_or_justHanded (h : (s.next step).node.oracle.Awaits) :
    Spares s step ∨ JustHanded (s.next step) := by
  have htaken := taken_apply s step
  generalize hstate : (apply s step).state = s' at htaken
  cases htaken with
  | rested now =>
    have hnext : s.next step = { s with now, node := s.node.drained } := by rw [State.next, hstate]
    rw [hnext] at h
    exact .inl ⟨by rw [hnext]; rfl, ⟨h.pending, h.unmarked⟩, .inl (by rw [hnext]; rfl)⟩
  | called c hc => exact spares_of_called hc hstate h
  | replanned epochs slots => exact .inl (spares_of_setFrameConfig h)
  | started =>
    have htended : s.node.oracle.Tended (φ := Empty) s.now
        (s.node.oracle.startProcessing (φ := Empty) s.now).state :=
      .performed .startProcessing rfl
    have hawaits : (s.node.oracle.startProcessing (φ := Empty) s.now).state.Awaits :=
      ⟨h.pending, h.unmarked⟩
    exact .inl ⟨htended.marks.report, hawaits.of_marks htended.marks, .inl rfl⟩

/-! ### Scripts under which a report waits -/

/-- Some step of a script met a condition in the state before it. -/
def Amid (s : State) (steps : List Step) (P : State → Step → Prop) : Prop :=
  ∃ before step rest, steps = before ++ step :: rest ∧ P (s.after before) step

theorem amid_append {P : State → Step → Prop} :
    Amid s (steps ++ [step]) P ↔ Amid s steps P ∨ P (s.after steps) step := by
  constructor
  · rintro ⟨before, met, rest, heq, hmet⟩
    obtain rfl | ⟨rest, last, rfl⟩ := rest.eq_nil_or_concat
    · obtain ⟨rfl, hlast⟩ := List.append_inj' heq rfl
      cases hlast
      exact .inr hmet
    · rw [List.concat_eq_append, ← List.cons_append, ← List.append_assoc] at heq
      exact .inl ⟨before, met, rest, (List.append_inj' heq rfl).1, hmet⟩
  · rintro (⟨before, met, rest, rfl, hmet⟩ | hlast)
    · exact ⟨before, met, rest ++ [step], by simp, hmet⟩
    · exact ⟨steps, step, [], rfl, hlast⟩

/-- What holds of a report that is just handed over holds while it waits, unless some step has
broken it. -/
theorem holds_or_amid {I : State → Prop} {P : Oracle.Report → State → Step → Prop}
    (hhanded : ∀ s, JustHanded s → I s)
    (hstep : ∀ s step, s.node.engine.UpToDate s.now → s.now ≤ (s.next step).now → Spares s step →
      I s → I (s.next step) ∨ P s.node.oracle.report s step)
    (h : s.node.engine.UpToDate s.now) (hnew : ¬ s.node.oracle.Awaits)
    (hforward : s.Forward steps) (hawaits : (s.after steps).node.oracle.Awaits) :
    I (s.after steps) ∨ Amid s steps (P (s.after steps).node.oracle.report) := by
  refine hforward.keep (I := fun steps => (s.after steps).node.oracle.Awaits →
    I (s.after steps) ∨ Amid s steps (P (s.after steps).node.oracle.report)) ?_ ?_ hawaits
  · exact fun hawaits => absurd hawaits hnew
  · intro done step hforward ih hawaits
    obtain ⟨hdone, hnow, -⟩ := State.forward_append.mp hforward
    have hafter : s.after (done ++ [step]) = (s.after done).next step := State.after_append ..
    rw [hafter] at hawaits ⊢
    -- Either it is the report that waited before the last step, or a new one.
    obtain hspares | hnew := spares_or_justHanded hawaits
    · rw [hspares.report]
      obtain hholds | hamid := ih hspares.awaits
      · exact (hstep _ _ (upToDate_after h hdone) hnow hspares hholds).imp_right fun hbroken =>
          amid_append.mpr (.inr hbroken)
      · exact .inr (amid_append.mpr (.inl hamid))
    · exact .inl (hhanded _ hnew)

end Simulation

end ReportQuorum
