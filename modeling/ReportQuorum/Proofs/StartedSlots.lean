import Mathlib.Data.List.Induction
import Mathlib.Data.List.Perm.Subperm
import ReportQuorum.Proofs.PendingReports
import ReportQuorum.Proofs.VoteOrder

/-!
# Slots that were started

A slot is locked if it is not after the oracle's mark. The mark of a new oracle is zero, which is
meant to say that nothing has been started; for every slot but zero it says so, and then a slot is
locked only because a start has succeeded, for the slot or for a later one. As long as no start has
succeeded nothing keeps a frame from its agreement, on whatever way the clock has come to it: the
votes of as many entitled members as the quorum demands are accepted, and the oracle holds their
report. The slot zero is locked from the beginning, and nobody can vote for it.

## Main definitions

* `Simulation.Starts`: a step starts to process a report

## Main results

* `Simulation.marked_after`: which slots are locked after a script
* `Simulation.Heeds.held`: what the oracle holds after a vote
* `Simulation.locked_iff_started`: locked slots are those that were started, and zero
* `Simulation.locked_from_the_start`: the slot zero is locked before anything was started
-/

namespace ReportQuorum

/-! ### Refused votes -/

namespace Engine

variable {π ε : Type} [ReportProcessor π ε] {e : Engine π} {now version : Word} {sender : Address}
  {vote : Vote} {f : Frame}

/-- A vote is refused on the ground that the slot is locked only if it is. -/
theorem processing_of_judge (hf : e.schedule.frameAt now = .ok f)
    (h : e.judge now sender vote version = .error .alreadyProcessing) :
    ReportProcessor.isProcessing e.processor f.refSlot = true := by
  rw [judge] at h
  cases hmember : e.roster.indexOf? sender with
  | none =>
    simp only [hmember] at h
    cases h
  | some i =>
    simp only [hmember, hf] at h
    by_cases hslot : vote.refSlot = f.refSlot
    · cases hprocessing : ReportProcessor.isProcessing e.processor f.refSlot with
      | true => rfl
      | false =>
        -- All other faults have a name of their own.
        simp only [hslot, hprocessing, Bool.false_eq_true, if_false] at h
        repeat' split at h
        all_goals cases h
    · simp only [ne_eq, hslot, not_false_eq_true, if_true] at h
      split at h <;> cases h

theorem processing_of_submitReport (hf : e.schedule.frameAt now = .ok f)
    (h : (e.submitReport now sender vote version).result = .error .alreadyProcessing) :
    ReportProcessor.isProcessing e.processor f.refSlot = true := by
  rw [submitReport] at h
  cases hjudge : e.judge now sender vote version with
  | error err =>
    rw [hjudge] at h
    cases h
    exact processing_of_judge hf hjudge
  | ok admission =>
    rw [hjudge] at h
    cases admission with
    | late => cases h
    | counted =>
      -- Where settling the votes fails, it is not for this reason.
      have hs := (e.recordVote sender vote).settled now
      dsimp only at h
      generalize (e.recordVote sender vote).settle now = r at hs h
      cases hs <;> cases h

end Engine

/-! ### Votes that are recorded -/

namespace Roster

variable {r : Roster} {refSlot : Word} {a : Address} {d : Digest} {votes : List (Address × Digest)}

theorem vote?_recordAll_of_notMem (h : a ∉ votes.map (·.1)) :
    (r.recordAll refSlot votes).vote? a = r.vote? a := by
  induction votes generalizing r with
  | nil => rfl
  | cons v votes ih =>
    obtain ⟨hne, hrest⟩ := List.ne_and_not_mem_of_not_mem_cons h
    exact (ih hrest).trans (vote?_record_of_ne hne _)

/-- Of distinct members each is on record with its vote. -/
theorem vote?_recordAll (hdistinct : (votes.map (·.1)).Nodup) (hmem : (a, d) ∈ votes)
    (ha : r.contains a = true) : (r.recordAll refSlot votes).vote? a = some ⟨refSlot, d⟩ := by
  induction votes generalizing r with
  | nil => cases hmem
  | cons v votes ih =>
    obtain ⟨hnew, hrest⟩ := List.nodup_cons.mp hdistinct
    obtain rfl | hmem := List.mem_cons.mp hmem
    · exact (vote?_recordAll_of_notMem hnew).trans (vote?_record ha _)
    · refine ih hrest hmem ?_
      rwa [contains_iff, members_record, ← contains_iff]

/-- Distinct members that are on record with a vote are counted for it. -/
theorem length_le_votesFor {v : Vote} {members : List Address} (hr : r.members.Nodup)
    (hdistinct : members.Nodup) (h : ∀ a ∈ members, r.vote? a = some v) :
    members.length ≤ r.votesFor v := by
  let seat (a : Address) : Seat := { member := a, vote := v }
  have hseats : (members.map seat).Nodup :=
    hdistinct.map fun a b hab => congrArg Seat.member hab
  have hsub : members.map seat ⊆ r.seats.filter (·.vote = v) := by
    intro s hs
    obtain ⟨a, ha, rfl⟩ := List.mem_map.mp hs
    exact List.mem_filter.mpr ⟨(vote?_eq_some_iff hr).mp (h a ha), by simp [seat]⟩
  calc members.length
      = (members.map seat).length := (List.length_map _).symm
    _ ≤ (r.seats.filter (·.vote = v)).length :=
      (List.subperm_of_subset hseats hsub).length_le
    _ = r.votesFor v := List.countP_eq_length_filter.symm

end Roster

namespace Node

variable {c : Config} {now : Word} {n : Node}

/-- Nothing has been started when a node is made. -/
theorem processingSlot_of_create (h : create c now = .ok n) : n.oracle.processingSlot = 0 := by
  refine invariant_of_grants (I := fun e => e.processor.processingSlot = 0) ?_ ?_ ?_ h
  · intro o e ho he
    rw [(Engine.created_of_create he).processor, (Oracle.created_of_create ho).processingSlot]
    rfl
  · intro e c hc _ he
    have hserved := e.served_perform now c
    rw [Engine.incumbent_eq hc] at hserved
    exact hserved.processingSlot.trans he
  · intro e role e' hok he
    obtain ⟨o, roles, changed, rfl, rfl⟩ := eq_of_grantInOracle hok
    simpa using he

end Node

namespace Simulation

open Scenario (Step)

variable {s : State} {f : Frame} {d : Digest}

/-! ### The mark -/

/-- A step starts to process the report that the oracle holds. -/
def Starts (s : State) (step : Step) : Prop :=
  step = .startProcessing ∧ (apply s step).result = .ok ()

/-- A step locks the slots up to the one of the report that it starts to process, and no others. -/
theorem marked_next (h : s.node.engine.Bound s.node.oracle) (step : Step) (slot : Word) :
    slot ≤ (s.next step).node.oracle.processingSlot ↔ slot ≤ s.node.oracle.processingSlot ∨
      (Starts s step ∧ slot ≤ s.node.oracle.report.refSlot) := by
  by_cases hstart : step = .startProcessing
  · subst hstart
    have hstarted := s.node.oracle.started (φ := Empty) s.now
    have hstate : (s.next .startProcessing).node.oracle.processingSlot =
        (s.node.oracle.startProcessing (φ := Empty) s.now).state.processingSlot := rfl
    have hresult : (apply s .startProcessing).result =
        ((s.node.oracle.startProcessing s.now).result.map fun _ => ()).mapError .oracle := rfl
    rw [hstate, Starts, hresult]
    generalize s.node.oracle.startProcessing s.now = r at hstarted
    cases hstarted with
    | refused err => simp [Except.map]
    | handlerRefused _ => simp [Except.map]
    | started _ _ _ _ =>
      constructor
      · exact fun hslot => .inr ⟨⟨rfl, rfl⟩, hslot⟩
      · rintro (hold | ⟨-, hslot⟩)
        · exact UInt64.le_trans hold h.processingSlot_le
        · exact hslot
  · -- No other step moves the mark.
    have hsame : (s.next step).node.oracle.processingSlot = s.node.oracle.processingSlot := by
      obtain ⟨s', htaken, hnext⟩ := taken_next s step
      rw [hnext]
      change s'.node.oracle.processingSlot = _
      cases htaken with
      | rested now => rfl
      | called c hc => exact (h.perform s.now c (Engine.Command.not_replaces_of_isBallot hc)).2
      | replanned epochs slots => exact (h.perform s.now (.setFrameConfig _ epochs slots) rfl).2
      | started => exact absurd rfl hstart
    rw [hsame, or_iff_left fun hstarts => hstart hstarts.1.1]

theorem bound_after (h : s.node.engine.Bound s.node.oracle) (steps : List Step) :
    (s.after steps).node.engine.Bound (s.after steps).node.oracle := by
  induction steps generalizing s with
  | nil => exact h
  | cons step steps ih => exact ih (bound_next h step)

/-- After a script those slots are locked that were locked before it, and those up to a slot that it
has started. -/
theorem marked_after (h : s.node.engine.Bound s.node.oracle) (steps : List Step) (slot : Word) :
    slot ≤ (s.after steps).node.oracle.processingSlot ↔ slot ≤ s.node.oracle.processingSlot ∨
      Amid s steps fun s step => Starts s step ∧ slot ≤ s.node.oracle.report.refSlot := by
  induction steps using List.reverseRecOn with
  | nil =>
    refine (or_iff_left ?_).symm
    rintro ⟨before, step, rest, heq, -⟩
    simp at heq
  | append_singleton steps step ih =>
    rw [State.after_append, amid_append, ← or_assoc, ← ih]
    exact marked_next (bound_after h steps) step slot

/-! ### The report of a ballot -/

/-- After a vote has been settled with the others, the oracle holds a report that the vote has put
on the list if the report has as many votes as it needs. -/
theorem Heeds.held (h : Heeds s f) (hweighed : Weighed s f d)
    (hsize : s.node.engine.roster.size < UInt64.size)
    (hreach : s.node.engine.Reaches ⟨f.refSlot, d⟩) :
    s.node.oracle.held = some ⟨f.refSlot, d⟩ := by
  obtain ⟨cs, hcs⟩ := h.faithful
  have hwinner := hreach.winner hcs hsize hweighed.slot hweighed.listed
  rw [hweighed.level f h.isOpen] at hwinner
  exact h.mirrored.held_of_agreedFor hwinner

/-- The votes of as many members as the quorum demands hand their report over. -/
theorem Heeds.held_after_ballot {p : Progress} (h : Heeds p.state f)
    (hsize : p.state.node.engine.roster.size < UInt64.size) {members : List Address}
    (hdistinct : members.Nodup)
    (hcounts : ∀ a ∈ members, p.state.node.engine.Counts p.state.now f (a, d))
    (hquorum : max 1 p.state.node.engine.quorum.toNat ≤ members.length) (index : Nat) :
    let q := p.play index (ballot f.refSlot (members.map (·, d)))
    q.rejected = p.rejected ∧ q.state.node.oracle.held = some ⟨f.refSlot, d⟩ := by
  intro q
  have hvoters : (members.map (·, d)).map Prod.fst = members := by
    rw [List.map_map]
    exact List.map_id members
  have hnodup : ((members.map (·, d)).map Prod.fst).Nodup := hvoters.symm ▸ hdistinct
  -- Every vote of the ballot puts the report on the list, so the last one does.
  obtain ⟨hrejected, hpolled, -, hlast⟩ :=
    ballot_accepted (I := (Heeds · f)) (J := fun s => Heeds s f ∧ Weighed s f d) (·.1)
      (fun hv h hcount => by
        obtain ⟨a, -, rfl⟩ := List.mem_map.mp hv
        exact h.vote hcount)
      h hnodup (fun v hv => by
        obtain ⟨a, ha, rfl⟩ := List.mem_map.mp hv
        exact hcounts a ha) index
  refine ⟨hrejected, ?_⟩
  have hsome : members.map (·, d) ≠ [] := by
    intro hnone
    rw [List.map_eq_nil_iff.mp hnone] at hquorum
    exact absurd hquorum (by simp)
  obtain ⟨hend, hweighed⟩ := hlast hsome
  obtain ⟨cs, hcs⟩ := hend.faithful
  refine hend.held hweighed ?_ ?_
  · rw [hpolled.roster, Roster.size_recordAll]
    exact hsize
  · -- Whoever has voted is on record with the report, and nobody has two seats.
    rw [Engine.Reaches, hpolled.quorum]
    refine Nat.le_trans hquorum (Roster.length_le_votesFor hcs.nodup hdistinct fun a ha => ?_)
    rw [hpolled.roster]
    exact Roster.vote?_recordAll hnodup (List.mem_map_of_mem ha) (hcounts a ha).mayVote.member

/-! ### Plays -/

/-- After every play against a new node, whatever its steps and however its clock moves, the current
reference slot counts as being processed exactly if a start has succeeded for it or for a later one,
or if it is zero. As long as no start has succeeded, no vote in a frame for another slot is refused
on that ground. There the votes of as many entitled members as the quorum demands, for a report that
none of them has on record, are all accepted, and the oracle holds the report, unless it was handed
one for a later slot; that takes a clock that goes back. The number of members is one that fits a
word. -/
theorem locked_iff_started {c : Node.Config} {now : Word} {n : Node}
    (h : Node.create c now = .ok n) (steps : List Step) :
    let start := Progress.start now n
    let p := start.play 0 steps
    let e := p.state.node.engine
    (∀ status, e.status p.state.now = .ok status →
      (status.isProcessing = true ↔ status.refSlot = 0 ∨ Amid start.state steps fun s step =>
        Starts s step ∧ status.refSlot ≤ s.node.oracle.report.refSlot)) ∧
      (¬ Amid start.state steps Starts →
        ∀ f, e.schedule.frameAt p.state.now = .ok f → f.refSlot ≠ 0 →
          (∀ member report slot version,
            (apply p.state (.submitReport member report slot version)).result ≠
              .error (.engine .alreadyProcessing)) ∧
          (start.state.Forward steps → p.state.node.oracle.report.refSlot ≤ f.refSlot) ∧
          (p.state.node.oracle.report.refSlot ≤ f.refSlot → e.roster.size < UInt64.size →
            ∀ d, d ≠ Octets.zero → ∀ members : List Address, members.Nodup →
              (∀ a ∈ members, e.MayVote p.state.now a f ∧
                e.roster.vote? a ≠ some ⟨f.refSlot, d⟩) →
              max 1 e.quorum.toNat ≤ members.length → ∀ index,
                let q := p.play index (ballot f.refSlot (members.map (·, d)))
                q.rejected = p.rejected ∧ q.state.node.oracle.held = some ⟨f.refSlot, d⟩)) := by
  intro start p e
  have hstate : p.state = start.state.after steps := play_state start 0 steps
  have hnew : start.state.node.engine.Bound start.state.node.oracle :=
    (Progress.Locked.create h).bound
  have hbound : e.Bound p.state.node.oracle := by
    change p.state.node.engine.Bound p.state.node.oracle
    rw [hstate]
    exact bound_after hnew steps
  -- The mark of the new oracle locks nothing but the slot zero.
  have hlocked : ∀ slot, ReportProcessor.isProcessing p.state.node.oracle slot = true ↔
      slot = 0 ∨ Amid start.state steps fun s step =>
        Starts s step ∧ slot ≤ s.node.oracle.report.refSlot := by
    intro slot
    have hmark : start.state.node.oracle.processingSlot = 0 :=
      (Node.processingSlot_of_create h :)
    have hmarked := marked_after hnew steps slot
    rw [hmark, UInt64.le_zero_iff, ← hstate] at hmarked
    exact decide_eq_true_iff.trans hmarked
  constructor
  · intro status hstatus
    obtain ⟨f, -, rfl⟩ := Engine.status_eq_ok.mp hstatus
    exact hlocked f.refSlot
  · -- What follows is for frames that no start has locked.
    intro hunstarted f hf hpos
    have hfree : ReportProcessor.isProcessing p.state.node.oracle f.refSlot = false := by
      refine Bool.eq_false_iff.mpr fun hprocessing => ?_
      obtain hzero | ⟨before, step, rest, heq, hstarts, -⟩ := (hlocked f.refSlot).mp hprocessing
      · exact hpos hzero
      · exact hunstarted ⟨before, step, rest, heq, hstarts⟩
    refine ⟨?_, ?_, ?_⟩
    · intro member report slot version hrefused
      rw [apply_submitReport hf] at hrefused
      generalize hsubmit : p.state.node.engine.submitReport p.state.now member _ _ = r at hrefused
      obtain ⟨result, e'⟩ := r
      cases result with
      | ok u => cases hrefused
      | error err =>
        cases hrefused
        have hprocessing := Engine.processing_of_submitReport hf (congrArg Reply.result hsubmit)
        cases hfree.symm.trans hprocessing
    · intro hforward
      exact (upToDate_play h hforward).room (abreast_play h hforward) hf
    · intro hroom hsize d hd members hdistinct hmembers hquorum index
      obtain ⟨first, hfirst⟩ := List.exists_mem_of_length_pos
        (Nat.lt_of_lt_of_le Nat.zero_lt_one (Nat.le_trans (Nat.le_max_left ..) hquorum))
      have hopen : e.Open p.state.now f := ⟨hf, (hmembers first hfirst).1.timely, hfree⟩
      have hrested : p.Rested := (Progress.rested_start h).play 0 steps
      have hheeds : Heeds p.state f :=
        ⟨hrested.mirrored, hbound, faithful_play h steps, hopen, hroom⟩
      refine hheeds.held_after_ballot hsize hdistinct (fun a ha => ?_) hquorum index
      obtain ⟨hmay, hunvoted⟩ := hmembers a ha
      exact ⟨hmay, hd, hunvoted⟩

/-- The clock runs on to the second frame and goes back to the first one, where one of three members
votes. As nothing has been started, the slot is free, and the other two can agree on another
report. -/
theorem agreed_after_going_back :
    let member (i : Nat) : Address := .ofLowByte (.ofNat (i + 1))
    let c := Node.Config.sample member 3
    let report := Octets.replicate 32 7
    let steps : List Step :=
      [.advanceSlots 7200, .setTime c.startTime,
        .submitReport (member 1) (Octets.replicate 32 8) none none]
    let members := [member 0, member 2]
    ∃ n, Node.create c c.startTime = .ok n ∧
      ¬ (Progress.start c.startTime n).state.Forward steps ∧
      let p := (Progress.start c.startTime n).play 0 steps
      (∃ status, p.state.node.engine.status p.state.now = .ok status ∧ status.refSlot = 31 ∧
        status.isProcessing = false) ∧
        let q := p.play 3 (ballot 31 (members.map (·, report)))
        q.rejected = [] ∧ q.state.node.oracle.held = some ⟨31, report⟩ := by
  intro member c report steps members
  let p (n : Node) : Progress := (Progress.start c.startTime n).play 0 steps
  have hplay : (Node.create c c.startTime).toOption.any (fun n => decide (
      ¬ (Progress.start c.startTime n).state.Forward steps ∧ (p n).rejected = [] ∧
        ((p n).state.node.engine.schedule.frameAt (p n).state.now).toOption =
          some ⟨0, 31, 7231⟩ ∧
        (p n).state.node.oracle.report.refSlot ≤ 31 ∧
        (p n).state.node.engine.roster.size < UInt64.size ∧
        (p n).state.node.engine.schedule.grid.slotAt (p n).state.now ≤ 7231 ∧
        (p n).state.node.engine.schedule.inFastLane ⟨0, 31, 7231⟩
          ((p n).state.node.engine.schedule.grid.slotAt (p n).state.now) = false ∧
        (∀ a ∈ members, (p n).state.node.engine.roster.contains a = true ∧
          (p n).state.node.engine.roster.vote? a ≠ some ⟨31, report⟩) ∧
        max 1 (p n).state.node.engine.quorum.toNat ≤ members.length)) = true := by
    decide +kernel
  obtain ⟨n, hmade, hback, hnone, hf, hroom, hsize, htimely, hlane, hmembers, hquorum⟩ :=
    exists_of_any hplay
  dsimp only [p] at hnone hf hroom hsize htimely hlane hmembers hquorum
  have hcurrent := toOption_eq_some.mp hf
  have hunstarted : ∀ {P : State → Step → Prop}, (∀ s step, P s step → Starts s step) →
      ¬ Amid (Progress.start c.startTime n).state steps P := by
    rintro P hP ⟨before, step, rest, heq, hmet⟩
    have hmem : step ∈ steps := heq ▸ List.mem_append_right _ (List.mem_cons_self ..)
    rw [(hP _ _ hmet).1] at hmem
    simp [steps] at hmem
  obtain ⟨hlocked, hagreed⟩ := locked_iff_started hmade steps
  refine ⟨n, hmade, hback, ⟨_, Engine.status_eq_ok.mpr ⟨_, hcurrent, rfl⟩, rfl, ?_⟩, ?_⟩
  · refine Bool.eq_false_iff.mpr fun hprocessing => ?_
    obtain hzero | hstarted :=
      (hlocked _ (Engine.status_eq_ok.mpr ⟨_, hcurrent, rfl⟩)).mp hprocessing
    · cases hzero
    · exact hunstarted (fun _ _ h => h.1) hstarted
  · obtain ⟨-, -, hheld⟩ := hagreed (hunstarted fun _ _ h => h) _ hcurrent (by decide)
    obtain ⟨hrejected, hheld⟩ := hheld hroom hsize report (by decide) members (by decide)
      (fun a ha => by
        obtain ⟨hmember, hunvoted⟩ := hmembers a ha
        exact ⟨⟨hmember, hcurrent, htimely, fun hfast => nomatch hlane.symm.trans hfast⟩,
          hunvoted⟩) hquorum 3
    exact ⟨hrejected.trans hnone, hheld⟩

/-- With epochs of one slot the first frame is for the slot zero. It counts as being processed in a
new node, before any step was taken, and each of three entitled members is refused on that
ground. -/
theorem locked_from_the_start :
    let member (i : Nat) : Address := .ofLowByte (.ofNat (i + 1))
    let c : Node.Config :=
      { Node.Config.sample member 3 with grid := ⟨1, 12, 100⟩, epochsPerFrame := 1 }
    ∃ n, Node.create c c.startTime = .ok n ∧
      let p := (Progress.start c.startTime n).play 0 []
      ¬ Amid (Progress.start c.startTime n).state [] Starts ∧
        p.state.node.engine.status p.state.now = .ok ⟨0, Octets.zero, true⟩ ∧
        ∀ a ∈ c.members, p.state.node.engine.MayVote p.state.now a ⟨0, 0, 1⟩ ∧
          (apply p.state (.submitReport a (Octets.replicate 32 7) none none)).result =
            .error (.engine .alreadyProcessing) := by
  intro member c
  let s (n : Node) : State := ((Progress.start c.startTime n).play 0 []).state
  have hplay : (Node.create c c.startTime).toOption.any (fun n => decide (
      ((s n).node.engine.status (s n).now).toOption = some ⟨0, Octets.zero, true⟩ ∧
        ((s n).node.engine.schedule.frameAt (s n).now).toOption = some ⟨0, 0, 1⟩ ∧
        (s n).node.engine.schedule.grid.slotAt (s n).now ≤ 1 ∧
        (s n).node.engine.schedule.inFastLane ⟨0, 0, 1⟩
          ((s n).node.engine.schedule.grid.slotAt (s n).now) = false ∧
        ∀ a ∈ c.members, (s n).node.engine.roster.contains a = true ∧
          (apply (s n) (.submitReport a (Octets.replicate 32 7) none none)).result =
            .error (.engine .alreadyProcessing))) = true := by
    decide +kernel
  obtain ⟨n, hmade, hstatus, hf, htimely, hlane, hmembers⟩ := exists_of_any hplay
  dsimp only [s] at hstatus hf htimely hlane hmembers
  refine ⟨n, hmade, ?_, toOption_eq_some.mp hstatus, fun a ha => ?_⟩
  · rintro ⟨before, step, rest, heq, -⟩
    simp at heq
  · obtain ⟨hmember, hrefused⟩ := hmembers a ha
    exact ⟨⟨hmember, toOption_eq_some.mp hf, htimely,
      fun hfast => nomatch hlane.symm.trans hfast⟩, hrefused⟩

end Simulation

end ReportQuorum
