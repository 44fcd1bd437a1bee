import ReportQuorum.Proofs.Exchanges
import ReportQuorum.Proofs.HeldMajority
import ReportQuorum.Proofs.OracleRuns

/-!
# Slots that are locked

When an oracle has started to process a report, the report's reference slot is locked, and so are
all slots before it. Votes may still come in, members come and go, the quorum and the layout of
frames change, and a clock that goes back may make a locked slot the current one again; but no
outcome is told for a locked slot any more, and the oracle is neither handed nor asked for a report
for it.

## Main definitions

* `Roster.lastVote?`: the last vote of a member, if it has voted since it joined
* `Node.Beyond`: events tell of no outcome and no report for a slot that is not after a given one
* `Simulation.Progress.Locked`: a play in which the slots up to a given one are locked
* `Simulation.Progress.Records`: a step records a vote and does nothing else

## Main results

* `Engine.judge_of_processing`: what becomes of a vote for a locked slot
* `Simulation.Progress.Locked.play`: locked slots stay locked, and no step tells of them
* `Simulation.locked_after_start`: what follows a start in every play
-/

namespace ReportQuorum

/-! ### Votes for a locked slot -/

namespace Roster

variable {r : Roster} {a : Address} {v : Vote}

/-- The last vote of a member, if it has voted since it joined. -/
def lastVote? (r : Roster) (a : Address) : Option Vote := (r.vote? a).filter (· ≠ Vote.blank)

theorem lastVote?_eq_some : r.lastVote? a = some v ↔ r.vote? a = some v ∧ v ≠ Vote.blank := by
  rw [lastVote?, Option.filter_eq_some_iff]
  simp

/-- What is on record of a member that has not voted is a vote for the slot zero. -/
theorem refSlot_of_lastVote?_eq_none (h : r.lastVote? a = none) :
    ((r.vote? a).getD Vote.blank).refSlot = 0 := by
  cases hvote : r.vote? a with
  | none => rfl
  | some v =>
    by_cases hblank : v = Vote.blank
    · rw [hblank]
      rfl
    · rw [lastVote?_eq_some.mpr ⟨hvote, hblank⟩] at h
      cases h

end Roster

namespace Engine

section Generic

variable {π ε : Type} [ReportProcessor π ε] {e : Engine π} {now version : Word} {sender : Address}
  {f : Frame} {report : Digest}

/-- A vote of an entitled account for a locked slot is recorded, unless what is on record of the
account is for the same slot. -/
theorem judge_of_processing (h : e.MayVote now sender f)
    (hprocessing : ReportProcessor.isProcessing e.processor f.refSlot = true)
    (hreport : report ≠ Octets.zero) :
    e.judge now sender ⟨f.refSlot, report⟩ (ReportProcessor.version e.processor) =
      if ((e.roster.vote? sender).getD Vote.blank).refSlot = f.refSlot then
        .error .alreadyProcessing
      else .ok .late := by
  rw [judge_of_mayVote h hreport, if_pos hprocessing]

/-- No vote is accepted while the current slot is locked if what is on record of the sender is for
that slot. -/
theorem judge_refused_of_processing (hf : e.schedule.frameAt now = .ok f)
    (hprocessing : ReportProcessor.isProcessing e.processor f.refSlot = true)
    (hvoted : ((e.roster.vote? sender).getD Vote.blank).refSlot = f.refSlot) (vote : Vote)
    (version : Word) : ∃ err, e.judge now sender vote version = .error err := by
  rw [judge]
  cases hmember : e.roster.indexOf? sender with
  | none => exact ⟨_, rfl⟩
  | some i =>
    simp only [hf]
    by_cases hslot : vote.refSlot = f.refSlot
    · simp only [hslot, hprocessing, hvoted, if_true]
      repeat' split
      all_goals exact ⟨_, rfl⟩
    · simp only [ne_eq, hslot, not_false_eq_true, if_true]
      split <;> exact ⟨_, rfl⟩

end Generic

/-! ### What is told of locked slots -/

section OfOracle

variable {η φ : Type} {e e' : Engine (Oracle η)} {slot : Word}

/-- What a call deals is for a slot after the oracle's mark, and so after any locked slot. -/
theorem Dealt.beyond (h : e.Dealt e') (hmarked : slot ≤ e.processor.processingSlot) :
    ∃ outcomes submitted discarded, e.Tells e' outcomes submitted discarded ∧
      (∀ b ∈ outcomes, slot < b.refSlot) ∧ (∀ v ∈ submitted, slot < v.refSlot) ∧
      ∀ v ∈ discarded, slot < v.refSlot := by
  cases h with
  | nothing told _ => exact ⟨[], [], [], told, nofun, nofun, nofun⟩
  | outcome b unprocessed told _ =>
    have hlater : slot < b.refSlot := UInt64.lt_of_le_of_lt hmarked unprocessed
    refine ⟨_, _, _, told, ?_, ?_, ?_⟩
    · intro b' hb
      rw [List.mem_singleton.mp hb]
      exact hlater
    · intro v hv
      obtain ⟨report, -, rfl⟩ := Option.map_eq_some_iff.mp (Option.mem_toList.mp hv)
      exact hlater
    · intro v hv
      obtain ⟨-, hslot⟩ := Option.filter_eq_some_iff.mp (Option.mem_toList.mp hv)
      rw [of_decide_eq_true hslot]
      exact hlater

/-- A call that does not replace the oracle leaves its mark, and the oracle works on for the
engine. -/
theorem Bound.perform [ReportHandler η φ] (h : e.Bound e.processor) (now : Word)
    (c : Command (Oracle η)) (hc : c.replaces = false) :
    (e.perform now c).state.Bound (e.perform now c).state.processor ∧
      (e.perform now c).state.processor.processingSlot = e.processor.processingSlot := by
  have hperformed := e.performed now c
  have hserved := e.served_perform now c
  rw [incumbent_eq hc] at hserved
  exact ⟨h.of_served hserved hperformed.address hperformed.grid, hserved.processingSlot⟩

end OfOracle

end Engine

namespace Node

variable {slot : Word} {events events' : List Event}

/-- Events tell of outcomes and reports for slots after a given one only. -/
structure Beyond (slot : Word) (events : List Event) : Prop where
  outcomes : ∀ b ∈ outcomes events, slot < b.refSlot
  submitted : ∀ v ∈ submitted events, slot < v.refSlot
  discarded : ∀ v ∈ discarded events, slot < v.refSlot

theorem Beyond.append (h : Beyond slot events) (h' : Beyond slot events') :
    Beyond slot (events ++ events') := by
  constructor
  · intro b hb
    rw [outcomes_append] at hb
    exact (List.mem_append.mp hb).elim (h.outcomes b) (h'.outcomes b)
  · intro v hv
    rw [submitted_append] at hv
    exact (List.mem_append.mp hv).elim (h.submitted v) (h'.submitted v)
  · intro v hv
    rw [discarded_append] at hv
    exact (List.mem_append.mp hv).elim (h.discarded v) (h'.discarded v)

end Node

namespace Simulation

open Scenario (Step)

variable {s s' : State} {step : Step}

/-- No step of a script moves the mark of the oracle back. -/
theorem bound_taken (h : s.node.engine.Bound s.node.oracle) (htaken : Taken s step s') :
    s'.node.engine.Bound s'.node.oracle ∧
      s.node.oracle.processingSlot ≤ s'.node.oracle.processingSlot := by
  cases htaken with
  | rested now => exact ⟨h, UInt64.le_refl _⟩
  | called c hc =>
    obtain ⟨hbound, hmark⟩ := h.perform s.now c (Engine.Command.not_replaces_of_isBallot hc)
    exact ⟨hbound, UInt64.le_of_eq hmark.symm⟩
  | replanned epochs slots =>
    obtain ⟨hbound, hmark⟩ := h.perform s.now (.setFrameConfig s.node.admin epochs slots) rfl
    exact ⟨hbound, UInt64.le_of_eq hmark.symm⟩
  | started =>
    have hforward := (s.node.oracle.performed s.now .startProcessing).forward h.processingSlot_le
    have htended : s.node.oracle.Tended (φ := Empty) s.now
        (s.node.oracle.startProcessing (φ := Empty) s.now).state :=
      .performed .startProcessing rfl
    exact ⟨(h.of_marks htended.marks).congr rfl rfl, hforward.processingSlot⟩

theorem bound_next (h : s.node.engine.Bound s.node.oracle) (step : Step) :
    (s.next step).node.engine.Bound (s.next step).node.oracle := by
  obtain ⟨hbound, -⟩ := bound_taken h (taken_apply s step)
  exact ⟨hbound.engine, hbound.grid, hbound.processingSlot_le⟩

namespace Progress

variable {p q : Progress} {slot : Word}

/-- Between two steps of a play all slots up to a given one are locked. -/
structure Locked (p : Progress) (slot : Word) : Prop where
  rested : p.Rested
  bound : p.state.node.engine.Bound p.state.node.oracle
  marked : slot ≤ p.state.node.oracle.processingSlot

namespace Locked

theorem create {c : Node.Config} {now : Word} {n : Node} (h : Node.create c now = .ok n) :
    (start now n).Locked 0 :=
  ⟨rested_start h, (upToDate_drained (Node.upToDate_of_create h)).bound, UInt64.zero_le ..⟩

/-- Locked slots stay locked, and no step tells of them. -/
theorem next (h : p.Locked slot) (index : Nat) (step : Step) :
    (p.next index step).Locked slot ∧
      Node.Beyond slot (apply p.state step).state.node.pending := by
  have htaken := taken_apply p.state step
  obtain ⟨-, hmark⟩ := bound_taken h.bound htaken
  obtain ⟨outcomes, submitted, discarded, htells, hbeyond⟩ :=
    (dealt_taken h.rested.mirrored htaken).beyond h.marked
  obtain ⟨houtcomes, hsubmitted, hdiscarded⟩ := h.rested.told htells
  refine ⟨⟨h.rested.next index step, bound_next h.bound step, UInt64.le_trans h.marked hmark⟩, ?_⟩
  · exact ⟨houtcomes ▸ hbeyond.1, hsubmitted ▸ hbeyond.2.1, hdiscarded ▸ hbeyond.2.2⟩

theorem play (h : p.Locked slot) (index : Nat) (steps : List Step) :
    (p.play index steps).Locked slot ∧
      ∃ told, (p.play index steps).events = p.events ++ told ∧ Node.Beyond slot told := by
  induction steps generalizing p index with
  | nil => exact ⟨h, [], (List.append_nil _).symm, nofun, nofun, nofun⟩
  | cons step steps ih =>
    obtain ⟨hnext, hfirst⟩ := h.next index step
    obtain ⟨hplay, told, hevents, hrest⟩ := ih hnext (index + 1)
    refine ⟨hplay, _ ++ told, ?_, hfirst.append hrest⟩
    rw [Progress.play, hevents, Progress.next, List.append_assoc]

/-- A start that succeeds locks the slot of the report held. -/
theorem started (h : p.Locked slot) (hok : (apply p.state .startProcessing).result = .ok ())
    (index : Nat) :
    (p.next index .startProcessing).Locked p.state.node.oracle.report.refSlot := by
  obtain ⟨hnext, -⟩ := h.next index .startProcessing
  refine ⟨hnext.rested, hnext.bound, ?_⟩
  have hstarted := p.state.node.engine.processor.started (φ := Empty) p.state.now
  simp only [apply, State.afterOracle] at hok
  change _ ≤ (p.state.node.engine.processor.startProcessing p.state.now).state.processingSlot
  generalize p.state.node.engine.processor.startProcessing p.state.now = r at hstarted hok
  cases hstarted with
  | refused _ => cases hok
  | handlerRefused _ => cases hok
  | started _ _ _ _ => exact UInt64.le_refl _

end Locked

/-! ### Votes in a play -/

/-- A step records a vote, tells of that once, and does nothing else. -/
structure Records (p q : Progress) (member : Address) (vote : Vote) : Prop where
  state : q.state =
    { p.state with node.engine := (p.state.node.engine.recordVote member vote).drained }
  recorded : q.state.node.engine.roster.vote? member = some vote
  told : q.events = p.events ++ [.engine (.reportReceived vote.refSlot member vote.report)]
  accepted : q.rejected = p.rejected
  oracle : q.state.node.oracle = p.state.node.oracle

end Progress

/-- A vote that does not name a slot or a version is for the current slot and for the oracle's
version. -/
theorem apply_submitReport {f : Frame} (hf : s.node.engine.schedule.frameAt s.now = .ok f)
    (member : Address) (report : Digest) (slot version : Option Word) :
    apply s (.submitReport member report slot version) =
      s.afterEngine (s.node.engine.submitReport s.now member ⟨slot.getD f.refSlot, report⟩
        (version.getD s.node.oracle.version)) := by
  cases slot with
  | some slot => rfl
  | none =>
    have hcurrent : s.node.engine.currentFrame s.now = .ok f := hf
    simp only [apply, hcurrent]
    rfl

namespace Progress.Rested

variable {p : Progress} {f : Frame} {member : Address} {report : Digest}

/-- While the current slot is locked, a member with a vote for it on record is refused. -/
theorem refuses_vote (hf : p.state.node.engine.schedule.frameAt p.state.now = .ok f)
    (hprocessing : ReportProcessor.isProcessing p.state.node.oracle f.refSlot = true)
    (hvoted : ((p.state.node.engine.roster.vote? member).getD Vote.blank).refSlot = f.refSlot)
    (report : Digest) (slot version : Option Word) :
    ∃ cause, apply p.state (.submitReport member report slot version) =
      ⟨.error cause, p.state⟩ := by
  obtain ⟨err, hrefused⟩ := Engine.judge_refused_of_processing hf hprocessing hvoted
    ⟨slot.getD f.refSlot, report⟩ (version.getD p.state.node.oracle.version)
  refine ⟨.engine err, ?_⟩
  rw [apply_submitReport hf, Engine.submitReport_of_judge_error hrefused]
  rfl

/-- While the current slot is locked, the vote of an entitled member with no vote for it on record
is recorded. -/
theorem records_vote (h : p.Rested) (hmay : p.state.node.engine.MayVote p.state.now member f)
    (hprocessing : ReportProcessor.isProcessing p.state.node.oracle f.refSlot = true)
    (hunvoted : ((p.state.node.engine.roster.vote? member).getD Vote.blank).refSlot ≠ f.refSlot)
    (hreport : report ≠ Octets.zero) {slot version : Option Word}
    (hslot : slot ∈ [none, some f.refSlot])
    (hversion : version ∈ [none, some p.state.node.oracle.version]) (index : Nat) :
    p.Records (p.next index (.submitReport member report slot version)) member
      ⟨f.refSlot, report⟩ := by
  have hslot : slot.getD f.refSlot = f.refSlot := by
    obtain rfl | rfl : slot = none ∨ slot = some f.refSlot := by simpa using hslot
    · rfl
    · rfl
  have hversion : version.getD p.state.node.oracle.version = p.state.node.oracle.version := by
    obtain rfl | rfl : version = none ∨ version = some p.state.node.oracle.version := by
      simpa using hversion
    · rfl
    · rfl
  have hlate : p.state.node.engine.judge p.state.now member ⟨f.refSlot, report⟩
      p.state.node.oracle.version = .ok .late := by
    have hjudge := Engine.judge_of_processing hmay hprocessing hreport
    rwa [if_neg hunvoted] at hjudge
  have happly : apply p.state (.submitReport member report slot version) =
      ⟨.ok (), { p.state with
        node.engine := p.state.node.engine.recordVote member ⟨f.refSlot, report⟩ }⟩ := by
    rw [apply_submitReport hmay.current, hslot, hversion, Engine.submitReport, hlate]
    rfl
  have horacle : p.state.node.oracle.drained = p.state.node.oracle :=
    congrArg Node.oracle h.fetched
  have hpending := h.events_eq_nil
  have hstate : (p.next index (.submitReport member report slot version)).state =
      { p.state with
        node.engine := (p.state.node.engine.recordVote member ⟨f.refSlot, report⟩).drained } := by
    rw [Progress.next, happly]
    change ({ p.state with
      node.engine := ({ p.state.node.engine.recordVote member ⟨f.refSlot, report⟩ with
        processor := p.state.node.oracle.drained } : Engine _).drained } : State) = _
    rw [horacle]
    rfl
  refine ⟨hstate, ?_, ?_, ?_, ?_⟩
  · rw [hstate]
    exact Roster.vote?_record hmay.member _
  · rw [Progress.next, happly, Node.pending]
    change p.events ++ ((p.state.node.engine.events ++ _).map _ ++
      p.state.node.oracle.events.map _) = _
    rw [hpending.1, hpending.2]
    rfl
  · rw [Progress.next, happly]
  · rw [hstate]
    rfl

end Progress.Rested

/-- In every play against a new node, whatever its steps and however its clock moves: after a start
that succeeds no outcome is told for the slot started or an earlier one, and no report for such a
slot is handed over or given back. Whenever the current slot is locked, a member whose last vote is
for it is refused; the vote of another entitled member is recorded, which is told once, and changes
nothing in the oracle. A member that has not voted since it joined counts as one that has voted for
the slot zero. -/
theorem locked_after_start {c : Node.Config} {now : Word} {n : Node}
    (h : Node.create c now = .ok n) (before later : List Step) :
    let held := (Progress.start now n).play 0 before
    (apply held.state .startProcessing).result = .ok () →
    let started := held.next before.length .startProcessing
    let p := started.play (before.length + 1) later
    (∃ told, p.events = started.events ++ told ∧
      Node.Beyond held.state.node.oracle.report.refSlot told) ∧
    ∀ f, p.state.node.engine.schedule.frameAt p.state.now = .ok f →
      ReportProcessor.isProcessing p.state.node.oracle f.refSlot = true →
      ∀ member,
        (∀ v, p.state.node.engine.roster.lastVote? member = some v → v.refSlot = f.refSlot →
          ∀ report slot version, ∃ cause,
            apply p.state (.submitReport member report slot version) = ⟨.error cause, p.state⟩) ∧
        (p.state.node.engine.MayVote p.state.now member f →
          (∀ v, p.state.node.engine.roster.lastVote? member = some v → v.refSlot ≠ f.refSlot) →
          (p.state.node.engine.roster.lastVote? member = none → f.refSlot ≠ 0) →
          ∀ report, report ≠ Octets.zero → ∀ slot ∈ [none, some f.refSlot],
          ∀ version ∈ [none, some p.state.node.oracle.version], ∀ index,
            p.Records (p.next index (.submitReport member report slot version)) member
              ⟨f.refSlot, report⟩) := by
  intro held hok started p
  have hheld : held.Locked 0 := ((Progress.Locked.create h).play 0 before).1
  obtain ⟨hp, htold⟩ := (hheld.started hok before.length).play (before.length + 1) later
  refine ⟨htold, fun f hf hprocessing member => ⟨?_, ?_⟩⟩
  · intro v hlast hslot report slot version
    refine Progress.Rested.refuses_vote hf hprocessing ?_ report slot version
    rw [(Roster.lastVote?_eq_some.mp hlast).1]
    exact hslot
  · intro hmay hother hnever report hreport slot hslot version hversion index
    refine hp.rested.records_vote hmay hprocessing ?_ hreport hslot hversion index
    cases hlast : p.state.node.engine.roster.lastVote? member with
    | none =>
      rw [Roster.refSlot_of_lastVote?_eq_none hlast]
      exact (hnever hlast).symm
    | some v =>
      rw [(Roster.lastVote?_eq_some.mp hlast).1]
      exact hother v hlast

/-- The third member votes when the slot is locked. There is an agreement on the next slot, and then
the clock goes back: the third member is refused, and the first one, whose last vote is for the next
slot, is not. -/
theorem locked_when_clock_goes_back :
    let member (i : Nat) : Address := .ofLowByte (.ofNat (i + 1))
    let c := Node.Config.sample member 3
    let report := Octets.replicate 32 7
    let vote (i : Nat) : Step := .submitReport (member i) report none none
    let before : List Step := [vote 0, vote 1]
    let later : List Step := [vote 2, .advanceSlots 7200, vote 0, vote 1, .setTime c.startTime]
    ∃ n, Node.create c c.startTime = .ok n ∧
      let held := (Progress.start c.startTime n).play 0 before
      (apply held.state .startProcessing).result = .ok () ∧
        held.state.node.oracle.report.refSlot = 31 ∧
        let started := held.next before.length .startProcessing
        let p := started.play (before.length + 1) later
        (∃ told, p.events = started.events ++ told ∧ Node.Beyond 31 told ∧
          Node.outcomes told = [⟨7231, some report⟩]) ∧
        (∃ cause, apply p.state (vote 2) = ⟨.error cause, p.state⟩) ∧
        p.Records (p.next 8 (vote 0)) (member 0) ⟨31, report⟩ := by
  intro member c report vote before later
  let held (n : Node) : Progress := (Progress.start c.startTime n).play 0 before
  let started (n : Node) : Progress := (held n).next before.length .startProcessing
  let p (n : Node) : Progress := (started n).play (before.length + 1) later
  have hplay : (Node.create c c.startTime).toOption.any (fun n => decide (
      (apply (held n).state .startProcessing).result.toOption = some () ∧
        (held n).state.node.oracle.report.refSlot = 31 ∧
        Node.outcomes ((p n).events.drop (started n).events.length) = [⟨7231, some report⟩] ∧
        ((p n).state.node.engine.schedule.frameAt (p n).state.now).toOption =
          some ⟨0, 31, 7231⟩ ∧
        ReportProcessor.isProcessing (p n).state.node.oracle 31 = true ∧
        (p n).state.node.engine.roster.lastVote? (member 2) = some ⟨31, report⟩ ∧
        (p n).state.node.engine.roster.lastVote? (member 0) = some ⟨7231, report⟩ ∧
        (p n).state.node.engine.roster.contains (member 0) = true ∧
        (p n).state.node.engine.schedule.grid.slotAt (p n).state.now ≤ 7231 ∧
        (p n).state.node.engine.inLane ⟨0, 31, 7231⟩ (member 0) = true)) = true := by
    decide +kernel
  obtain ⟨n, hmade, hstart, hslot, houtcomes, hf, hprocessing, hlast₂, hlast₀, hmember, htimely,
    hlane⟩ := exists_of_any hplay
  dsimp only [p, started, held] at hstart hslot houtcomes hf hprocessing hlast₂ hlast₀
  dsimp only [p, started, held] at hmember htimely hlane
  have hok := toOption_eq_some.mp hstart
  have hcurrent := toOption_eq_some.mp hf
  obtain ⟨⟨told, hevents, hbeyond⟩, hvotes⟩ := locked_after_start hmade before later hok
  have hvotes := hvotes ⟨0, 31, 7231⟩ hcurrent hprocessing
  rw [hevents, List.drop_left] at houtcomes
  rw [hslot] at hbeyond
  refine ⟨n, hmade, hok, hslot, ⟨told, hevents, hbeyond, houtcomes⟩, ?_, ?_⟩
  · exact (hvotes (member 2)).1 ⟨31, report⟩ hlast₂ rfl report none none
  · refine (hvotes (member 0)).2 ⟨hmember, hcurrent, htimely, fun _ => hlane⟩ ?_ ?_ report
      (by decide) none (by simp) none (by simp) 8
    · intro v hv
      obtain rfl := Option.some.inj (hlast₀.symm.trans hv)
      decide
    · intro hnone
      rw [hlast₀] at hnone
      cases hnone

/-- With epochs of one slot the first frame is for the slot zero. When the clock goes back to it
after the next slot was started, an entitled member that has never voted is refused. -/
theorem refused_before_first_vote :
    let member (i : Nat) : Address := .ofLowByte (.ofNat (i + 1))
    let c : Node.Config :=
      { Node.Config.sample member 3 with grid := ⟨1, 12, 100⟩, epochsPerFrame := 1 }
    let vote (i : Nat) : Step := .submitReport (member i) (Octets.replicate 32 7) none none
    let before : List Step := [.advanceSlots 1, vote 0, vote 1, .setTime c.startTime]
    ∃ n, Node.create c c.startTime = .ok n ∧
      let held := (Progress.start c.startTime n).play 0 before
      (apply held.state .startProcessing).result = .ok () ∧
        let p := held.next before.length .startProcessing
        ∃ f, p.state.node.engine.MayVote p.state.now (member 2) f ∧
          ReportProcessor.isProcessing p.state.node.oracle f.refSlot = true ∧
          p.state.node.engine.roster.lastVote? (member 2) = none ∧
          (apply p.state (vote 2)).result = .error (.engine .alreadyProcessing) := by
  intro member c vote before
  let held (n : Node) : Progress := (Progress.start c.startTime n).play 0 before
  let p (n : Node) : Progress := (held n).next before.length .startProcessing
  have hplay : (Node.create c c.startTime).toOption.any (fun n => decide (
      (apply (held n).state .startProcessing).result.toOption = some () ∧
        (p n).state.node.engine.roster.contains (member 2) = true ∧
        ((p n).state.node.engine.schedule.frameAt (p n).state.now).toOption = some ⟨0, 0, 1⟩ ∧
        (p n).state.node.engine.schedule.grid.slotAt (p n).state.now ≤ 1 ∧
        (p n).state.node.engine.schedule.inFastLane ⟨0, 0, 1⟩
          ((p n).state.node.engine.schedule.grid.slotAt (p n).state.now) = false ∧
        ReportProcessor.isProcessing (p n).state.node.oracle 0 = true ∧
        (p n).state.node.engine.roster.lastVote? (member 2) = none ∧
        (apply (p n).state (vote 2)).result = .error (.engine .alreadyProcessing))) = true := by
    decide +kernel
  obtain ⟨n, hmade, hstart, hmember, hf, htimely, hlane, hprocessing, hlast, hrefused⟩ :=
    exists_of_any hplay
  refine ⟨n, hmade, toOption_eq_some.mp hstart, ⟨0, 0, 1⟩,
    ⟨hmember, toOption_eq_some.mp hf, htimely, fun hfast => ?_⟩, hprocessing, hlast, hrefused⟩
  cases hlane.symm.trans hfast

end Simulation

end ReportQuorum
