import ReportQuorum.Proofs.VotingRights

/-!
# The order of votes

When members vote one after the other, the order decides what happens on the way: which report
reaches the quorum first, what is handed over and given back again, in which order the tally lists
the reports. None of that is left in the end. No two reports have as many votes as they need, so the
votes alone say which one wins, however the list is searched; and the oracle holds what wins.

## Main definitions

* `Roster.recordAll`: the roster with several votes recorded
* `Simulation.ballot`: the steps in which members vote in turn
* `Simulation.Polls`: the votes for a frame are being counted at a node
* `Simulation.Heeds`: a vote for a frame would be counted, also after the clock has gone back
* `Simulation.Weighed`: the votes for a frame, one of them for a report, have been settled
* `Simulation.Polled`: between two states votes were cast, and nothing else happened

## Main results

* `Roster.recordAll_perm`: the votes of several members are recorded in any order
* `Simulation.Heeds.vote`, `Simulation.Polls.ballot`: every vote of a ballot is accepted
* `Simulation.Polls.outcome_eq`: the votes alone say what becomes of them
* `Simulation.order_of_votes_irrelevant`: two orders of the same votes come to the same
-/

namespace ReportQuorum

open ReportHandler (willing_reportLog)

namespace Roster

variable {votes votes' : List (Address × Digest)}

/-- The roster with the votes of several members for one reference slot. -/
def recordAll (r : Roster) (refSlot : Word) (votes : List (Address × Digest)) : Roster :=
  votes.foldl (fun r v => r.record v.1 ⟨refSlot, v.2⟩) r

theorem size_recordAll (r : Roster) (refSlot : Word) (votes : List (Address × Digest)) :
    (r.recordAll refSlot votes).size = r.size := by
  induction votes generalizing r with
  | nil => rfl
  | cons v votes ih => exact (ih _).trans (size_record ..)

/-- The votes of distinct members are recorded in any order. -/
theorem recordAll_perm (h : votes.Perm votes') (hdistinct : (votes.map (·.1)).Nodup) (r : Roster)
    (refSlot : Word) : r.recordAll refSlot votes = r.recordAll refSlot votes' := by
  refine h.foldl_eq' (fun v hv w hw r => ?_) r
  by_cases hsame : v.1 = w.1
  · rw [List.inj_on_of_nodup_map hdistinct hv hw hsame]
  · exact record_comm hsame r _ _

end Roster

namespace Engine

section Generic

variable {π ε : Type} {e e' : Engine π} {now now' : Word} {f : Frame} {cs cs' : List (Command π)}
  {v w : Address × Digest}

/-- The zero digest does not win. -/
theorem Faithful.winner_ne_zero (h : e.Faithful cs) (refSlot : Word) :
    (e.winnerFor refSlot).map (·.report) ≠ some Octets.zero := by
  intro hwinner
  obtain ⟨variant, hvariant, hzero⟩ := Option.map_eq_some_iff.mp hwinner
  exact h.named _ (Tally.exists_of_winner hvariant).1 hzero

/-- Of two engines with the same votes and the same quorum the same report wins, though the one may
list the reports in another order than the other. -/
theorem Listed.winner_eq (h : e.Listed now) (hcs : e.Faithful cs) (h' : e'.Listed now')
    (hcs' : e'.Faithful cs') (hf : e.schedule.frameAt now = .ok f)
    (hf' : e'.schedule.frameAt now' = .ok f) (hroster : e'.roster = e.roster)
    (hquorum : e'.quorum = e.quorum) (hsize : e.roster.size < UInt64.size) :
    (e'.winnerFor f.refSlot).map (·.report) = (e.winnerFor f.refSlot).map (·.report) := by
  refine Option.ext fun d => ?_
  by_cases hd : d = Octets.zero
  · rw [hd]
    exact iff_of_false (hcs'.winner_ne_zero _) (hcs.winner_ne_zero _)
  · rw [h.winner_iff hf hcs hsize hd, h'.winner_iff hf' hcs' (hroster ▸ hsize) hd, Reaches, Reaches,
      hroster, hquorum]

variable [ReportProcessor π ε]

/-- A vote for a report in a frame is one that counts, as far as its sender is concerned: the sender
is entitled to vote, and the vote is not the one on record. -/
structure Counts (e : Engine π) (now : Word) (f : Frame) (v : Address × Digest) : Prop where
  mayVote : e.MayVote now v.1 f
  report : v.2 ≠ Octets.zero
  new : e.roster.vote? v.1 ≠ some ⟨f.refSlot, v.2⟩

/-- The votes of others take nothing from a vote. -/
theorem Counts.of_record (h : e.Counts now f w) (hne : w.1 ≠ v.1)
    (hschedule : e'.schedule = e.schedule) (hquorum : e'.quorum = e.quorum)
    (hroster : e'.roster = e.roster.record v.1 ⟨f.refSlot, v.2⟩) : e'.Counts now f w where
  mayVote := by
    have hlane : e'.inLane f w.1 = e.inLane f w.1 := by
      simp only [inLane, Roster.isFastLane, hroster, hquorum, Roster.indexOf?_record,
        Roster.count_record]
    refine ⟨?_, ?_, ?_, ?_⟩
    · rw [hroster, Roster.contains_iff, Roster.members_record, ← Roster.contains_iff]
      exact h.mayVote.member
    · exact hschedule ▸ h.mayVote.current
    · exact hschedule ▸ h.mayVote.timely
    · rw [hschedule, hlane]
      exact h.mayVote.lane
  report := h.report
  new := by
    rw [hroster, Roster.vote?_record_of_ne hne]
    exact h.new

end Generic

end Engine

namespace Simulation

open Scenario (Step)

/-- The step in which a member votes for a report, in the version of the oracle. -/
def castVote (refSlot : Word) (v : Address × Digest) : Step :=
  .submitReport v.1 v.2 (some refSlot) none

/-- The steps in which members vote for a reference slot, one after the other. -/
def ballot (refSlot : Word) (votes : List (Address × Digest)) : List Step :=
  votes.map (castVote refSlot)

variable {s s' s'' : State} {p : Progress} {f : Frame} {v : Address × Digest}
  {votes : List (Address × Digest)}

/-- The votes for a frame are being counted at a node. -/
structure Polls (s : State) (f : Frame) : Prop where
  upToDate : s.node.engine.UpToDate s.now
  abreast : s.node.engine.Abreast
  faithful : ∃ cs, s.node.engine.Faithful cs
  isOpen : s.node.engine.Open s.now f

/-- Votes for a frame are heeded at a node: the frame is open, and the oracle was handed nothing for
a later slot. -/
structure Heeds (s : State) (f : Frame) : Prop where
  mirrored : s.node.engine.Mirrored
  bound : s.node.engine.Bound s.node.oracle
  faithful : ∃ cs, s.node.engine.Faithful cs
  isOpen : s.node.engine.Open s.now f
  room : s.node.oracle.report.refSlot ≤ f.refSlot

theorem Polls.heeds (h : Polls s f) : Heeds s f :=
  ⟨h.upToDate.mirrored, h.upToDate.bound, h.faithful, h.isOpen,
    h.upToDate.room h.abreast h.isOpen.current⟩

/-- The votes for a frame, one of them for a report, have been settled. -/
structure Weighed (s : State) (f : Frame) (report : Digest) : Prop where
  level : s.node.engine.Level s.now
  slot : s.node.engine.tally.refSlot = f.refSlot
  listed : report ∈ s.node.engine.tally.reports

/-- Between two states members voted for a reference slot, and nothing else happened that the votes
depend on. -/
structure Polled (s s' : State) (refSlot : Word) (votes : List (Address × Digest)) : Prop where
  now : s'.now = s.now
  schedule : s'.node.engine.schedule = s.node.engine.schedule
  quorum : s'.node.engine.quorum = s.node.engine.quorum
  roster : s'.node.engine.roster = s.node.engine.roster.recordAll refSlot votes

theorem Polled.cons (h : Polled s s' f.refSlot [v]) (h' : Polled s' s'' f.refSlot votes) :
    Polled s s'' f.refSlot (v :: votes) where
  now := h'.now.trans h.now
  schedule := h'.schedule.trans h.schedule
  quorum := h'.quorum.trans h.quorum
  roster := by
    rw [h'.roster, h.roster]
    rfl

/-! ### Votes in turn -/

/-- What a vote comes to that the engine accepts. -/
theorem next_castVote (hf : s.node.engine.schedule.frameAt s.now = .ok f)
    {e' : Engine (Oracle ReportLog)}
    (h : s.node.engine.submitReport s.now v.1 ⟨f.refSlot, v.2⟩ s.node.oracle.version =
      ⟨.ok (), e'⟩) :
    (apply s (castVote f.refSlot v)).result = .ok () ∧ s.next (castVote f.refSlot v) =
      { s with node.engine := { e' with processor := e'.processor.drained }.drained } := by
  have happly : apply s (castVote f.refSlot v) = ⟨.ok (), { s with node.engine := e' }⟩ := by
    rw [castVote, apply_submitReport hf]
    exact congrArg s.afterEngine h
  rw [State.next, happly]
  exact ⟨rfl, rfl⟩

/-- A vote that counts is accepted where votes are heeded, and so are the next ones. -/
theorem Heeds.vote (h : Heeds s f) (hv : s.node.engine.Counts s.now f v) :
    (apply s (castVote f.refSlot v)).result = .ok () ∧
      Polled s (s.next (castVote f.refSlot v)) f.refSlot [v] ∧
      Heeds (s.next (castVote f.refSlot v)) f ∧ Weighed (s.next (castVote f.refSlot v)) f v.2 := by
  obtain ⟨old, hold⟩ := Roster.exists_vote? hv.mayVote.member
  have hjudge : s.node.engine.judge s.now v.1 ⟨f.refSlot, v.2⟩ s.node.oracle.version =
      .ok .counted := by
    have hnew : ¬ old = ⟨f.refSlot, v.2⟩ := fun heq => hv.new (heq ▸ hold)
    have hjudge := Engine.judge_of_mayVote hv.mayVote hv.report
    rwa [h.isOpen.unlocked, if_neg Bool.false_ne_true, hold, Option.getD_some,
      if_neg hnew] at hjudge
  have hroom : s.node.engine.processor.report.refSlot ≤ (⟨f.refSlot, v.2⟩ : Vote).refSlot := h.room
  obtain ⟨e', hsubmit, hvotes, hlevel, habreast⟩ :=
    Engine.submitReport_counted willing_reportLog h.mirrored hroom hjudge
  obtain ⟨hok, hnext⟩ := next_castVote hv.mayVote.current hsubmit
  have hslot : e'.tally.refSlot = f.refSlot := hvotes.refSlot
  have hopen : e'.Open s.now f := by
    refine h.isOpen.congr hvotes.schedule ?_
    have hserved := (h.bound.perform s.now
      (.submitReport v.1 ⟨f.refSlot, v.2⟩ s.node.engine.processor.version) rfl).2
    rw [Engine.perform] at hserved
    exact (congrArg (·.state.processor.processingSlot) hsubmit).symm.trans hserved
  refine ⟨hok, ?_, ⟨mirrored_next h.mirrored, bound_next h.bound _, faithful_next h.faithful, ?_,
    ?_⟩, ?_, ?_, ?_⟩
  · rw [hnext]
    exact ⟨rfl, hvotes.schedule, hvotes.quorum, hvotes.roster⟩
  · rw [hnext]
    exact ⟨hopen.current, hopen.timely, hopen.unlocked⟩
  · rw [hnext]
    exact hslot ▸ habreast
  · -- Fetching the events does not open another frame.
    rw [hnext]
    exact fun f' hopen' => hlevel f' ⟨hopen'.current, hopen'.timely, hopen'.unlocked⟩
  · rw [hnext]
    exact hslot
  · rw [hnext]
    change v.2 ∈ e'.tally.reports
    rw [hvotes.reports]
    exact Tally.mem_record_self _ _

/-- A vote that counts is accepted while votes are counted, and the count goes on. -/
theorem Polls.vote (h : Polls s f) (hv : s.node.engine.Counts s.now f v) :
    (apply s (castVote f.refSlot v)).result = .ok () ∧
      Polled s (s.next (castVote f.refSlot v)) f.refSlot [v] ∧
      Polls (s.next (castVote f.refSlot v)) f := by
  obtain ⟨hok, hpolled, hnext, -⟩ := h.heeds.vote hv
  refine ⟨hok, hpolled, ?_, abreast_next h.upToDate.listed h.abreast _, hnext.faithful,
    hnext.isOpen⟩
  exact upToDate_next h.upToDate (hpolled.now ▸ UInt64.le_refl _)

/-- If a condition has every vote that counts accepted and is kept by it, every vote of a ballot of
distinct members is accepted if it counts, and all are recorded. What every vote leads to holds in
the end. -/
theorem ballot_accepted {I J : State → Prop} (hkeep : ∀ {s}, J s → I s)
    (hvote : ∀ {s v}, v ∈ votes → I s → s.node.engine.Counts s.now f v →
      (apply s (castVote f.refSlot v)).result = .ok () ∧
        Polled s (s.next (castVote f.refSlot v)) f.refSlot [v] ∧
        J (s.next (castVote f.refSlot v)))
    (h : I p.state) (hdistinct : (votes.map (·.1)).Nodup)
    (hvotes : ∀ v ∈ votes, p.state.node.engine.Counts p.state.now f v) (index : Nat) :
    let q := p.play index (ballot f.refSlot votes)
    q.rejected = p.rejected ∧ Polled p.state q.state f.refSlot votes ∧ I q.state ∧
      (votes ≠ [] → J q.state) := by
  induction votes generalizing p index with
  | nil => exact ⟨rfl, ⟨rfl, rfl, rfl, rfl⟩, h, fun hsome => absurd rfl hsome⟩
  | cons v votes ih =>
    obtain ⟨hnew, hrest⟩ := List.nodup_cons.mp hdistinct
    obtain ⟨hok, hfirst, hnext⟩ :=
      hvote (List.mem_cons_self ..) h (hvotes v (List.mem_cons_self ..))
    have hstate : p.state.next (castVote f.refSlot v) =
        (p.next index (castVote f.refSlot v)).state := rfl
    rw [hstate] at hfirst hnext
    have hcounts : ∀ w ∈ votes, (p.next index (castVote f.refSlot v)).state.node.engine.Counts
        (p.next index (castVote f.refSlot v)).state.now f w := by
      intro w hw
      have hne : w.1 ≠ v.1 := fun heq => hnew (List.mem_map.mpr ⟨w, hw, heq⟩)
      rw [hfirst.now]
      exact (hvotes w (List.mem_cons_of_mem _ hw)).of_record hne hfirst.schedule hfirst.quorum
        hfirst.roster
    obtain ⟨hrejected, hpolled, hkept, hlast⟩ := ih (fun hw => hvote (List.mem_cons_of_mem _ hw))
      (hkeep hnext) hrest hcounts (index + 1)
    refine ⟨hrejected.trans ?_, hfirst.cons hpolled, hkept, fun _ => ?_⟩
    · exact (Progress.next_of_accepted [] index 0 hok).1
    · cases votes with
      | nil => exact hnext
      | cons w votes => exact hlast (List.cons_ne_nil _ _)

/-- Every vote of a ballot of distinct members is accepted if it counts, and all are recorded. -/
theorem Polls.ballot (h : Polls p.state f) (hdistinct : (votes.map (·.1)).Nodup)
    (hvotes : ∀ v ∈ votes, p.state.node.engine.Counts p.state.now f v) (index : Nat) :
    let q := p.play index (ballot f.refSlot votes)
    q.rejected = p.rejected ∧ Polled p.state q.state f.refSlot votes ∧ Polls q.state f := by
  obtain ⟨hrejected, hpolled, hend, -⟩ := ballot_accepted (I := (Polls · f)) (J := (Polls · f))
    id (fun _ h hv => h.vote hv) h hdistinct hvotes index
  exact ⟨hrejected, hpolled, hend⟩

/-! ### What becomes of the votes -/

/-- While votes are counted, the votes alone say which report is agreed on and which one the oracle
holds. -/
theorem Polls.outcome_eq (h : Polls s f) (h' : Polls s' f)
    (hroster : s'.node.engine.roster = s.node.engine.roster)
    (hquorum : s'.node.engine.quorum = s.node.engine.quorum)
    (hsize : s.node.engine.roster.size < UInt64.size) :
    s'.node.engine.status s'.now = s.node.engine.status s.now ∧
      ∀ d, s'.node.oracle.held = some ⟨f.refSlot, d⟩ ↔
        s.node.oracle.held = some ⟨f.refSlot, d⟩ := by
  obtain ⟨cs, hcs⟩ := h.faithful
  obtain ⟨cs', hcs'⟩ := h'.faithful
  have hwinner := h.upToDate.listed.winner_eq hcs h'.upToDate.listed hcs' h.isOpen.current
    h'.isOpen.current hroster hquorum hsize
  constructor
  · have hstatus := Engine.status_eq_ok.mpr ⟨f, h.isOpen.current, rfl⟩
    have hstatus' := Engine.status_eq_ok.mpr ⟨f, h'.isOpen.current, rfl⟩
    rw [hstatus, hstatus', Engine.leadingReport_eq_getD, Engine.leadingReport_eq_getD, hwinner,
      h.isOpen.unlocked, h'.isOpen.unlocked]
  · intro d
    exact (h'.upToDate.held_iff_winner h'.isOpen).trans
      (hwinner ▸ (h.upToDate.held_iff_winner h.isOpen).symm)

/-- After every play against a new node on a clock that does not go back: when several members who
are told that they can report vote for the current reference slot, each for a report other than its
vote on record for the slot, all are accepted in whatever order they vote. Two orders leave the same
votes on all seats, the same agreement, and the oracle with the same report for the slot, or with
none in both. The number of members is one that fits a word. -/
theorem order_of_votes_irrelevant {c : Node.Config} {now : Word} {n : Node}
    (h : Node.create c now = .ok n) {steps : List Step}
    (hforward : (Progress.start now n).state.Forward steps) :
    let p := (Progress.start now n).play 0 steps
    let e := p.state.node.engine
    ∀ f, e.currentFrame p.state.now = .ok f → e.roster.size < UInt64.size →
      ∀ votes : List (Address × Digest), (votes.map (·.1)).Nodup →
        (∀ v ∈ votes, (∃ view, e.memberView p.state.now v.1 = .ok view ∧ view.canReport = true) ∧
          v.2 ≠ Octets.zero ∧ e.roster.vote? v.1 ≠ some ⟨f.refSlot, v.2⟩) →
        ∀ votes', votes.Perm votes' → ∀ index,
          let q := p.play index (ballot f.refSlot votes)
          let q' := p.play index (ballot f.refSlot votes')
          q.rejected = p.rejected ∧ q'.rejected = p.rejected ∧
            q'.state.node.engine.roster = q.state.node.engine.roster ∧
            q'.state.node.engine.status q'.state.now = q.state.node.engine.status q.state.now ∧
            ∀ d, q'.state.node.oracle.held = some ⟨f.refSlot, d⟩ ↔
              q.state.node.oracle.held = some ⟨f.refSlot, d⟩ := by
  intro p e f hf hsize votes hdistinct hvotes votes' hperm index
  cases votes with
  | nil =>
    obtain rfl := hperm.nil_eq
    exact ⟨rfl, rfl, rfl, rfl, fun _ => .rfl⟩
  | cons first votes =>
    generalize hall : first :: votes = all at hdistinct hvotes hperm ⊢
    have hcounts : ∀ v ∈ all, e.Counts p.state.now f v ∧
        ReportProcessor.isProcessing e.processor f.refSlot = false := by
      intro v hv
      obtain ⟨⟨view, hview, hcan⟩, hreport, hnew⟩ := hvotes v hv
      obtain ⟨hmay, hfree⟩ := Engine.mayVote_of_canReport hf hview hcan
      exact ⟨⟨hmay, hreport, hnew⟩, hfree⟩
    -- Whoever can report tells that the votes are still being counted.
    obtain ⟨hfirst, hfree⟩ := hcounts first (hall ▸ List.mem_cons_self ..)
    have hpolls : Polls p.state f :=
      ⟨upToDate_play h hforward, abreast_play h hforward, faithful_play h steps, hf,
        hfirst.mayVote.timely, hfree⟩
    obtain ⟨haccepted, hpolled, hend⟩ :=
      hpolls.ballot hdistinct (fun v hv => (hcounts v hv).1) index
    obtain ⟨haccepted', hpolled', hend'⟩ := hpolls.ballot ((hperm.map _).nodup_iff.mp hdistinct)
      (fun v hv => (hcounts v (hperm.mem_iff.mpr hv)).1) index
    have hroster := hpolled'.roster.trans
      ((Roster.recordAll_perm hperm hdistinct _ _).symm.trans hpolled.roster.symm)
    refine ⟨haccepted, haccepted', hroster, hend.outcome_eq hend' hroster
      (hpolled'.quorum.trans hpolled.quorum.symm) ?_⟩
    rw [hpolled.roster, Roster.size_recordAll]
    exact hsize

/-- Two of five members have named a report when four more votes come in, one of them by a member
that changes its mind. In one order the report reaches the quorum, loses it and reaches it again; in
the other it reaches the quorum with the last vote only, and the tally lists the reports
differently. The oracle ends up with the report in both. -/
theorem same_end_of_four_votes :
    let member (i : Nat) : Address := .ofLowByte (.ofNat (i + 1))
    let c := Node.Config.sample member 5
    let report (i : Nat) : Digest := Octets.replicate 32 (.ofNat (i + 7))
    let f : Frame := ⟨0, 31, 7231⟩
    let steps : List Step := ballot f.refSlot [(member 0, report 0), (member 1, report 0)]
    let votes : List (Address × Digest) :=
      [(member 2, report 0), (member 0, report 1), (member 3, report 0), (member 4, report 2)]
    let votes' : List (Address × Digest) :=
      [(member 4, report 2), (member 0, report 1), (member 2, report 0), (member 3, report 0)]
    ∃ n, Node.create c c.startTime = .ok n ∧
      (Progress.start c.startTime n).state.Forward steps ∧
      let p := (Progress.start c.startTime n).play 0 steps
      let q := p.play 2 (ballot f.refSlot votes)
      let q' := p.play 2 (ballot f.refSlot votes')
      q.rejected = p.rejected ∧ q'.rejected = p.rejected ∧
        q.state.node.engine.tally.reports ≠ q'.state.node.engine.tally.reports ∧
        q'.state.node.engine.roster = q.state.node.engine.roster ∧
        q'.state.node.engine.status q'.state.now = q.state.node.engine.status q.state.now ∧
        q.state.node.oracle.held = some ⟨f.refSlot, report 0⟩ ∧
        q'.state.node.oracle.held = some ⟨f.refSlot, report 0⟩ := by
  intro member c report f steps votes votes'
  let p (n : Node) : Progress := (Progress.start c.startTime n).play 0 steps
  let e (n : Node) : Engine (Oracle ReportLog) := (p n).state.node.engine
  have hplay : (Node.create c c.startTime).toOption.any (fun n => decide (
      (Progress.start c.startTime n).state.Forward steps ∧
        ((e n).currentFrame (p n).state.now).toOption = some f ∧
        (e n).roster.size < UInt64.size ∧
        (∀ v ∈ votes, ((e n).memberView (p n).state.now v.1).toOption.any (·.canReport) = true ∧
          v.2 ≠ Octets.zero ∧ (e n).roster.vote? v.1 ≠ some ⟨f.refSlot, v.2⟩) ∧
        ((p n).play 2 (ballot f.refSlot votes)).state.node.engine.tally.reports ≠
          ((p n).play 2 (ballot f.refSlot votes')).state.node.engine.tally.reports ∧
        ((p n).play 2 (ballot f.refSlot votes)).state.node.oracle.held =
          some ⟨f.refSlot, report 0⟩)) = true := by
    decide +kernel
  obtain ⟨n, hmade, hforward, hf, hsize, hvotes, hlists, hheld⟩ := exists_of_any hplay
  dsimp only [p] at hlists hheld
  have hcan : ∀ v ∈ votes, (∃ view, (e n).memberView (p n).state.now v.1 = .ok view ∧
      view.canReport = true) ∧ v.2 ≠ Octets.zero ∧
      (e n).roster.vote? v.1 ≠ some ⟨f.refSlot, v.2⟩ := by
    intro v hv
    obtain ⟨hview, hvote⟩ := hvotes v hv
    obtain ⟨view, htold, hcan⟩ := (Option.any_eq_true _ _).mp hview
    exact ⟨⟨view, toOption_eq_some.mp htold, hcan⟩, hvote⟩
  obtain ⟨haccepted, haccepted', hroster, hstatus, hsame⟩ :=
    order_of_votes_irrelevant hmade hforward f (toOption_eq_some.mp hf) hsize votes
      (by decide +kernel) hcan votes' (by decide +kernel) 2
  exact ⟨n, hmade, hforward, haccepted, haccepted', hlists, hroster, hstatus, hheld,
    (hsame _).mpr hheld⟩

end Simulation

end ReportQuorum
