import ReportQuorum.Proofs.Acceptance
import ReportQuorum.Proofs.LockedSlots

/-!
# What a member is told about its right to vote

A member may ask whether it can report. The answer is found in another way than the verdict on its
vote, which looks for faults in turn, then counts the votes, and may end with two calls of the
oracle. Still the answer is right: the vote is accepted exactly if the member was told so, or if it
comes late, after the processing of the report has started. Of late votes the answer does not speak.

There is one exception. What is on record of a member that has never voted is a vote for the slot
zero, and a late vote for that slot is refused as if the member had cast it.

## Main definitions

* `Engine.MayVoteLate`: an account is entitled to a vote that is recorded only

## Main results

* `Engine.judge_eq_ok_iff`: which votes are accepted
* `Engine.submitReport_counted`, `Engine.submitReport_of_judge`: a vote that is judged well is
  recorded, whatever the oracle is asked for
* `Engine.submitReport_eq_ok_iff`: and only such a vote is accepted
* `Simulation.accepted_iff_canReport`: what a member of a node is told about its right to vote
* `Simulation.refused_at_slot_zero`: the exception
-/

namespace ReportQuorum

open ReportHandler (Willing willing_reportLog)

namespace Roster

variable {r : Roster} {a : Address} {v : Vote}

/-- What is on record of a member is for another slot exactly if the last vote of the member is, if
it has cast one; of a member that has cast none a vote for the slot zero is on record. -/
theorem refSlot_ne_iff (hv : r.vote? a = some v) {slot : Word} :
    v.refSlot ≠ slot ↔
      (∀ w, r.lastVote? a = some w → w.refSlot ≠ slot) ∧ (slot = 0 → r.lastVote? a ≠ none) := by
  cases hlast : r.lastVote? a with
  | none =>
    have hzero : v.refSlot = 0 := by
      have hrecord := refSlot_of_lastVote?_eq_none hlast
      rwa [hv] at hrecord
    rw [hzero]
    constructor
    · intro hne
      exact ⟨nofun, fun hslot => absurd hslot.symm hne⟩
    · rintro ⟨-, hvoted⟩ hslot
      exact hvoted hslot.symm rfl
  | some w =>
    obtain rfl := Option.some.inj (hv.symm.trans (lastVote?_eq_some.mp hlast).1)
    constructor
    · intro hne
      refine ⟨?_, nofun⟩
      rintro _ ⟨⟩
      exact hne
    · rintro ⟨hother, -⟩
      exact hother v rfl

end Roster

namespace Engine

section Generic

variable {π ε : Type} [ReportProcessor π ε] {e : Engine π} {now : Word} {sender : Address}
  {f : Frame} {report : Digest} {v : Vote}

/-- An account is entitled to a late vote, which is recorded only: the processor has started to
process the report of the frame, and the last vote of the account, if any, is for another slot. -/
structure MayVoteLate (e : Engine π) (now : Word) (sender : Address) (f : Frame) : Prop
    extends e.MayVote now sender f where
  locked : ReportProcessor.isProcessing e.processor f.refSlot = true
  unvoted : ∀ v, e.roster.lastVote? sender = some v → v.refSlot ≠ f.refSlot

/-- What a member is told about the current frame. -/
theorem memberView_eq_ok (hf : e.schedule.frameAt now = .ok f)
    (hv : e.roster.vote? sender = some v) :
    e.memberView now sender = .ok
      { refSlot := f.refSlot, report := e.leadingReport f, isMember := true
        isFastLane := e.inLane f sender
        canReport := e.schedule.grid.slotAt now ≤ f.deadlineSlot
          && !ReportProcessor.isProcessing e.processor f.refSlot
          && (e.inLane f sender || !e.schedule.inFastLane f (e.schedule.grid.slotAt now))
        lastRefSlot := v.refSlot
        memberReport := if v.refSlot = f.refSlot then v.report else Octets.zero } := by
  simp only [memberView, currentFrame, hf, hv]
  rfl

/-- A member is told that it can report exactly if it is entitled to vote and the slot is not
locked. -/
theorem exists_memberView (hf : e.schedule.frameAt now = .ok f)
    (hmember : e.roster.contains sender = true) :
    ∃ view, e.memberView now sender = .ok view ∧
      (view.canReport = true ↔ e.MayVote now sender f ∧
        ReportProcessor.isProcessing e.processor f.refSlot = false) := by
  obtain ⟨v, hv⟩ := Roster.exists_vote? hmember
  refine ⟨_, memberView_eq_ok hf hv, ?_⟩
  simp only [Bool.and_eq_true, Bool.or_eq_true, Bool.not_eq_true', decide_eq_true_eq]
  constructor
  · rintro ⟨⟨htimely, hfree⟩, hlane⟩
    refine ⟨⟨hmember, hf, htimely, fun hfast => ?_⟩, hfree⟩
    obtain hseated | hopen := hlane
    · exact hseated
    · cases hopen.symm.trans hfast
  · rintro ⟨hmay, hfree⟩
    refine ⟨⟨hmay.timely, hfree⟩, ?_⟩
    cases hfast : e.schedule.inFastLane f (e.schedule.grid.slotAt now) with
    | false => exact .inr rfl
    | true => exact .inl (hmay.lane hfast)

/-- Only a member is told that it can report. -/
theorem mayVote_of_canReport (hf : e.schedule.frameAt now = .ok f) {view : MemberView}
    (hview : e.memberView now sender = .ok view) (hcan : view.canReport = true) :
    e.MayVote now sender f ∧ ReportProcessor.isProcessing e.processor f.refSlot = false := by
  cases hmember : e.roster.contains sender with
  | true =>
    obtain ⟨view', hview', hiff⟩ := exists_memberView hf hmember
    obtain rfl := Except.ok.inj (hview.symm.trans hview')
    exact hiff.mp hcan
  | false =>
    have hnone : e.roster.vote? sender = none := Roster.vote?_eq_none hmember
    simp only [memberView, currentFrame, hf, hnone] at hview
    cases hview
    cases hcan

/-- A vote for a report in the current frame, other than the one on record, is accepted exactly if
the account is entitled to vote and, in case the slot is locked, the one on record is for another
slot. -/
theorem judge_eq_ok_iff (hf : e.schedule.frameAt now = .ok f)
    (hv : e.roster.vote? sender = some v) (hreport : report ≠ Octets.zero)
    (hnew : v ≠ ⟨f.refSlot, report⟩) :
    (∃ admission, e.judge now sender ⟨f.refSlot, report⟩
        (ReportProcessor.version e.processor) = .ok admission) ↔
      e.MayVote now sender f ∧
        (ReportProcessor.isProcessing e.processor f.refSlot = true → v.refSlot ≠ f.refSlot) := by
  constructor
  · rintro ⟨admission, hjudge⟩
    obtain ⟨f', hmay, -⟩ := mayVote_of_judge hjudge
    obtain rfl := Except.ok.inj (hf.symm.trans hmay.current)
    refine ⟨hmay, fun hlocked hvoted => ?_⟩
    rw [judge_of_mayVote hmay hreport, if_pos hlocked, hv, Option.getD_some,
      if_pos hvoted] at hjudge
    cases hjudge
  · rintro ⟨hmay, hunvoted⟩
    rw [judge_of_mayVote hmay hreport, hv, Option.getD_some, if_neg hnew]
    cases hlocked : ReportProcessor.isProcessing e.processor f.refSlot with
    | false => exact ⟨.counted, rfl⟩
    | true =>
      rw [if_pos rfl, if_neg (hunvoted hlocked)]
      exact ⟨.late, rfl⟩

/-- A vote that finds no other vote for its slot on record is one that the member was told it can
cast, or a late one, but not a first vote for the slot zero when that is locked. -/
theorem mayVote_and_unvoted_iff (hv : e.roster.vote? sender = some v) :
    e.MayVote now sender f ∧
        (ReportProcessor.isProcessing e.processor f.refSlot = true → v.refSlot ≠ f.refSlot) ↔
      ((e.MayVote now sender f ∧ ReportProcessor.isProcessing e.processor f.refSlot = false) ∨
          e.MayVoteLate now sender f) ∧
        (f.refSlot = 0 → ReportProcessor.isProcessing e.processor 0 = true →
          e.roster.lastVote? sender ≠ none) := by
  rw [Roster.refSlot_ne_iff hv]
  cases hlocked : ReportProcessor.isProcessing e.processor f.refSlot with
  | false =>
    -- Nothing is late, and the exception does not apply.
    have hfree : f.refSlot = 0 → ReportProcessor.isProcessing e.processor 0 = true → False := by
      intro hzero hprocessing
      rw [hzero, hprocessing] at hlocked
      cases hlocked
    constructor
    · rintro ⟨hmay, -⟩
      exact ⟨.inl ⟨hmay, rfl⟩, fun hzero hprocessing => (hfree hzero hprocessing).elim⟩
    · rintro ⟨⟨hmay, -⟩ | hlate, -⟩
      · exact ⟨hmay, nofun⟩
      · cases hlocked.symm.trans hlate.locked
  | true =>
    constructor
    · rintro ⟨hmay, hunvoted⟩
      obtain ⟨hother, hvoted⟩ := hunvoted rfl
      exact ⟨.inr ⟨hmay, hlocked, hother⟩, fun hzero _ => hvoted hzero⟩
    · rintro ⟨⟨-, hfree⟩ | hlate, hvoted⟩
      · cases hfree
      · refine ⟨hlate.toMayVote, fun _ => ⟨hlate.unvoted, fun hzero => hvoted hzero ?_⟩⟩
        rwa [hzero] at hlocked

end Generic

/-! ### Votes that are judged well -/

variable {η φ : Type} [ReportHandler η φ] {e : Engine (Oracle η)} {now version : Word}
  {sender : Address} {vote : Vote} {f : Frame}

/-- The slot of the report that was handed over last is not after the current one. -/
theorem UpToDate.room (h : e.UpToDate now) (habreast : e.Abreast)
    (hf : e.schedule.frameAt now = .ok f) : e.processor.report.refSlot ≤ f.refSlot :=
  UInt64.le_trans habreast (h.listed.le_current hf)

/-- A vote that is judged to count is accepted, and settled with the others: the oracle refuses
nothing that this may ask for, unless its last report is for a later slot. -/
theorem submitReport_counted (hwilling : Willing η) (h : e.Mirrored)
    (hroom : e.processor.report.refSlot ≤ vote.refSlot)
    (hjudge : e.judge now sender vote version = .ok .counted) :
    ∃ e', e.submitReport now sender vote version = ⟨.ok (), e'⟩ ∧
      (e.recordVote sender vote).SameVotes e' ∧ e'.Level now ∧ e'.Abreast := by
  rw [submitReport, hjudge]
  have hamends := Amends.submitReport hjudge
  have hmirrored : (e.recordVote sender vote).Mirrored :=
    h.of_keeps hamends.keeps (hamends.named h.named)
  have habreast : (e.recordVote sender vote).Abreast := hroom
  have hs := (e.recordVote sender vote).settled now
  cases hr : (e.recordVote sender vote).settle now with
  | mk result e' =>
    rw [hr] at hs
    -- Only the lack of a current frame could stop the settlement.
    obtain hok | ⟨cause, hnone, -⟩ := hs.accepted hwilling hmirrored habreast.room
    · cases hok
      exact ⟨e', rfl, hs.sameVotes, hs.level, hs.abreast habreast⟩
    · obtain ⟨f, hmay, -⟩ := mayVote_of_judge hjudge
      cases hmay.current.symm.trans hnone

/-- A vote that is judged well is accepted and recorded. -/
theorem submitReport_of_judge (hwilling : Willing η) (h : e.Mirrored)
    (hroom : e.processor.report.refSlot ≤ vote.refSlot) {admission : Admission}
    (hjudge : e.judge now sender vote version = .ok admission) :
    ∃ e', e.submitReport now sender vote version = ⟨.ok (), e'⟩ ∧
      (e.recordVote sender vote).SameVotes e' := by
  cases admission with
  | late =>
    rw [submitReport, hjudge]
    exact ⟨_, rfl, rfl, rfl, rfl, rfl, rfl, rfl, rfl⟩
  | counted =>
    obtain ⟨e', hsubmit, hvotes, -⟩ := submitReport_counted hwilling h hroom hjudge
    exact ⟨e', hsubmit, hvotes⟩

/-- A vote is accepted exactly if it is judged well. -/
theorem submitReport_eq_ok_iff (hwilling : Willing η) (h : e.Mirrored)
    (hroom : e.processor.report.refSlot ≤ vote.refSlot) :
    (e.submitReport now sender vote version).result = .ok () ↔
      ∃ admission, e.judge now sender vote version = .ok admission := by
  cases hjudge : e.judge now sender vote version with
  | error err =>
    rw [submitReport_of_judge_error hjudge]
    constructor
    · rintro ⟨⟩
    · rintro ⟨_, ⟨⟩⟩
  | ok admission =>
    obtain ⟨e', hsubmit, -⟩ := submitReport_of_judge hwilling h hroom hjudge
    rw [hsubmit]
    exact ⟨fun _ => ⟨admission, rfl⟩, fun _ => rfl⟩

end Engine

namespace Simulation

open Scenario (Step)

/-- After every play against a new node on a clock that does not go back, a member that casts a vote
for a report in the current frame, other than its last vote, is accepted exactly if it is told that
it can report or if it is entitled to a late vote, with one exception: while the slot zero is the
current one and locked, a member that has not voted since it joined is refused. An accepted vote is
the last one of the member afterwards, and a vote that is refused changes nothing. -/
theorem accepted_iff_canReport {c : Node.Config} {now : Word} {n : Node}
    (h : Node.create c now = .ok n) {steps : List Step}
    (hforward : (Progress.start now n).state.Forward steps) :
    let s := ((Progress.start now n).play 0 steps).state
    let e := s.node.engine
    ∀ f, e.currentFrame s.now = .ok f → ∀ member, e.roster.contains member = true →
      ∀ report, report ≠ Octets.zero → e.roster.lastVote? member ≠ some ⟨f.refSlot, report⟩ →
        ∃ view, e.memberView s.now member = .ok view ∧
          let reply := e.submitReport s.now member ⟨f.refSlot, report⟩ s.node.oracle.version
          (reply.result = .ok () ↔ (view.canReport = true ∨ e.MayVoteLate s.now member f) ∧
              (f.refSlot = 0 → ReportProcessor.isProcessing s.node.oracle 0 = true →
                e.roster.lastVote? member ≠ none)) ∧
            (reply.result = .ok () →
              reply.state.roster.lastVote? member = some ⟨f.refSlot, report⟩) ∧
            (reply.result ≠ .ok () → reply.state = e) := by
  intro s e f hf member hmember report hreport hnew
  have hupToDate : e.UpToDate s.now := upToDate_play h hforward
  have hroom := hupToDate.room (abreast_play h hforward) hf
  have hvote : (⟨f.refSlot, report⟩ : Vote) ≠ Vote.blank :=
    fun hblank => hreport (congrArg Vote.report hblank)
  obtain ⟨v, hv⟩ := Roster.exists_vote? hmember
  have hother : v ≠ ⟨f.refSlot, report⟩ := by
    rintro rfl
    exact hnew (Roster.lastVote?_eq_some.mpr ⟨hv, hvote⟩)
  obtain ⟨view, hview, hcan⟩ := Engine.exists_memberView hf hmember
  have hjudged := Engine.judge_eq_ok_iff hf hv hreport hother
  rw [Engine.mayVote_and_unvoted_iff hv, ← hcan] at hjudged
  have haccepted :
      (e.submitReport s.now member ⟨f.refSlot, report⟩ s.node.oracle.version).result = .ok () ↔
        ∃ admission, e.judge s.now member ⟨f.refSlot, report⟩ s.node.oracle.version =
          .ok admission :=
    Engine.submitReport_eq_ok_iff willing_reportLog hupToDate.mirrored hroom
  refine ⟨view, hview, haccepted.trans hjudged, fun hok => ?_, fun hrefused => ?_⟩
  · obtain ⟨admission, hjudge⟩ := haccepted.mp hok
    obtain ⟨e', hsubmit, hvotes⟩ :=
      Engine.submitReport_of_judge willing_reportLog hupToDate.mirrored hroom hjudge
    rw [hsubmit, hvotes.roster]
    exact Roster.lastVote?_eq_some.mpr ⟨Roster.vote?_record hmember _, hvote⟩
  · cases hjudge : e.judge s.now member ⟨f.refSlot, report⟩ s.node.oracle.version with
    | error err => rw [Engine.submitReport_of_judge_error hjudge]
    | ok admission => exact absurd (haccepted.mpr ⟨admission, hjudge⟩) hrefused

/-- The fourth of four members is not in the fast lane of the first frame: it is told that it cannot
report yet, and its vote is refused. When the other three have agreed and processing has started, it
is told the same, but its vote is late and is recorded. -/
theorem accepted_only_when_late :
    let member (i : Nat) : Address := .ofLowByte (.ofNat (i + 1))
    let c : Node.Config := { Node.Config.sample member 4 with fastLaneSlots := 10 }
    let report := Octets.replicate 32 7
    let vote (i : Nat) : Step := .submitReport (member i) report none none
    let early : List Step := [vote 0, vote 1]
    let late : List Step := [vote 0, vote 1, vote 2, .advanceSlots 20, .startProcessing]
    ∃ n, Node.create c c.startTime = .ok n ∧
      (Progress.start c.startTime n).state.Forward early ∧
      (Progress.start c.startTime n).state.Forward late ∧
      let state (steps : List Step) : State := ((Progress.start c.startTime n).play 0 steps).state
      let view (s : State) := s.node.engine.memberView s.now (member 3)
      let reply (s : State) :=
        s.node.engine.submitReport s.now (member 3) ⟨31, report⟩ s.node.oracle.version
      view (state early) = .ok ⟨31, Octets.zero, true, false, false, 0, Octets.zero⟩ ∧
        (reply (state early)).result ≠ .ok () ∧
        (reply (state early)).state = (state early).node.engine ∧
        view (state late) = .ok ⟨31, report, true, false, false, 0, Octets.zero⟩ ∧
        (reply (state late)).result = .ok () ∧
        (reply (state late)).state.roster.lastVote? (member 3) = some ⟨31, report⟩ := by
  intro member c report vote early late
  let state (n : Node) (steps : List Step) : State :=
    ((Progress.start c.startTime n).play 0 steps).state
  -- What both moments have in common.
  let unvoted (s : State) : Prop :=
    (s.node.engine.currentFrame s.now).toOption = some ⟨0, 31, 7231⟩ ∧
      s.node.engine.roster.contains (member 3) = true ∧
      s.node.engine.roster.lastVote? (member 3) = none
  let view (s : State) := (s.node.engine.memberView s.now (member 3)).toOption
  have hplay : (Node.create c c.startTime).toOption.any (fun n => decide (
      (Progress.start c.startTime n).state.Forward early ∧
        (Progress.start c.startTime n).state.Forward late ∧
        unvoted (state n early) ∧ unvoted (state n late) ∧
        view (state n early) = some ⟨31, Octets.zero, true, false, false, 0, Octets.zero⟩ ∧
        view (state n late) = some ⟨31, report, true, false, false, 0, Octets.zero⟩ ∧
        ReportProcessor.isProcessing (state n early).node.oracle 31 = false ∧
        ReportProcessor.isProcessing (state n late).node.oracle 31 = true ∧
        (state n late).node.engine.schedule.grid.slotAt (state n late).now ≤ 7231 ∧
        (state n late).node.engine.schedule.inFastLane ⟨0, 31, 7231⟩
          ((state n late).node.engine.schedule.grid.slotAt (state n late).now) = false)) =
      true := by
    decide +kernel
  obtain ⟨n, hmade, hearly, hlate, ⟨hf, hmember, hvote⟩, ⟨hf', hmember', hvote'⟩, hview, hview',
    hfree, hlocked, htimely, hlane⟩ := exists_of_any hplay
  rw [toOption_eq_some] at hf hf' hview hview'
  refine ⟨n, hmade, hearly, hlate, hview, ?_⟩
  obtain ⟨told, htold, hiff, -, hsame⟩ := accepted_iff_canReport hmade hearly _ hf _ hmember
    report (by decide) (hvote ▸ nofun)
  obtain rfl := Except.ok.inj (hview.symm.trans htold)
  have hrefused := mt hiff.mp (by
    rintro ⟨hcan | hmay, -⟩
    · cases hcan
    · cases hfree.symm.trans hmay.locked)
  obtain ⟨told', -, hiff', hrecorded, -⟩ := accepted_iff_canReport hmade hlate _ hf' _ hmember'
    report (by decide) (hvote' ▸ nofun)
  have hentitled : Engine.MayVoteLate _ _ (member 3) ⟨0, 31, 7231⟩ :=
    ⟨⟨hmember', hf', htimely, fun hfast => nomatch hlane.symm.trans hfast⟩, hlocked,
      fun _ hv => nomatch hvote'.symm.trans hv⟩
  have haccepted := hiff'.mpr ⟨.inr hentitled, nofun⟩
  exact ⟨hrefused, hsame hrefused, hview', haccepted, hrecorded haccepted⟩

/-- With epochs of one slot the first frame is for the slot zero, which is locked in a new node. A
member is entitled to a late vote there, and is refused. -/
theorem refused_at_slot_zero :
    let member (i : Nat) : Address := .ofLowByte (.ofNat (i + 1))
    let c : Node.Config :=
      { Node.Config.sample member 3 with grid := ⟨1, 12, 100⟩, epochsPerFrame := 1 }
    let report := Octets.replicate 32 7
    ∃ n, Node.create c c.startTime = .ok n ∧
      let s := ((Progress.start c.startTime n).play 0 []).state
      let e := s.node.engine
      ∃ f, e.currentFrame s.now = .ok f ∧ e.MayVoteLate s.now (member 0) f ∧
        e.roster.lastVote? (member 0) = none ∧
        (e.submitReport s.now (member 0) ⟨f.refSlot, report⟩ s.node.oracle.version).result =
          .error .alreadyProcessing := by
  intro member c report
  let s (n : Node) : State := ((Progress.start c.startTime n).play 0 []).state
  let e (n : Node) := (s n).node.engine
  have hplay : (Node.create c c.startTime).toOption.any (fun n => decide (
      ((e n).currentFrame (s n).now).toOption = some ⟨0, 0, 1⟩ ∧
        (e n).roster.contains (member 0) = true ∧
        (e n).schedule.grid.slotAt (s n).now ≤ 1 ∧
        (e n).schedule.inFastLane ⟨0, 0, 1⟩ ((e n).schedule.grid.slotAt (s n).now) = false ∧
        ReportProcessor.isProcessing (s n).node.oracle 0 = true ∧
        (e n).roster.lastVote? (member 0) = none ∧
        ((e n).submitReport (s n).now (member 0) ⟨0, report⟩ (s n).node.oracle.version).result =
          .error .alreadyProcessing)) = true := by
    decide +kernel
  obtain ⟨n, hmade, hf, hmember, htimely, hlane, hlocked, hlast, hrefused⟩ := exists_of_any hplay
  rw [toOption_eq_some] at hf
  refine ⟨n, hmade, ⟨0, 0, 1⟩, hf, ⟨⟨hmember, hf, htimely, ?_⟩, hlocked, ?_⟩, hlast, hrefused⟩
  · intro hfast
    cases hlane.symm.trans hfast
  · intro v hv
    cases hlast.symm.trans hv

end Simulation

end ReportQuorum
