import ReportQuorum.Proofs.Runs
import ReportQuorum.Proofs.Seats
import ReportQuorum.Recorder

/-!
# An agreement has a majority behind it

The seats of the committee tell for each member the vote that the accepted calls tell for it, and
the quorum stays a strict majority while members come and go. So whenever an agreement is reached,
as many members stand behind it as the event says, and they are a majority.

## Main definitions

* `Engine.Faithful`: the seats tell what the accepted calls tell

## Main results

* `Engine.Faithful.act`: whatever happens to an engine keeps it
* `Engine.majority_of_reached`: what an event that tells of an agreement stands for
-/

namespace ReportQuorum.Engine

variable {π ε : Type} {e e' e₁ : Engine π} {now : Word} {c : Command π} {cs : List (Command π)}

/-- The seats tell what the accepted calls tell, and the quorum is a strict majority unless no
quorum has been set. -/
structure Faithful (e : Engine π) (cs : List (Command π)) : Prop where
  votes : ∀ s ∈ e.roster.seats, s.vote = (standing s.member cs).getD Vote.blank
  nodup : e.roster.members.Nodup
  named : e.tally.Named
  quorum : e.quorum = 0 ∧ e.roster.members = [] ∨ Quorum.least e.roster.count ≤ e.quorum

namespace Faithful

theorem congr (h : e.Faithful cs) (hroster : e'.roster = e.roster) (hquorum : e'.quorum = e.quorum)
    (hnamed : e'.tally.Named) : e'.Faithful cs where
  votes := by
    rw [hroster]
    exact h.votes
  nodup := by
    rw [hroster]
    exact h.nodup
  named := hnamed
  quorum := by
    rw [hroster, hquorum]
    exact h.quorum

theorem of_sameVotes (h : e.Faithful cs) (hsame : e.SameVotes e') : e'.Faithful cs := by
  refine h.congr hsame.roster hsame.quorum ?_
  rw [Tally.Named, hsame.reports]
  exact h.named

/-- A call that touches neither seats nor quorum adds nothing to what the calls tell. -/
theorem append_of_revise (h : e.Faithful cs) (hc : ∀ a vote, c.revise a vote = vote) :
    e.Faithful (cs ++ [c]) where
  votes s hs := by
    rw [standing_append_singleton, hc]
    exact h.votes s hs
  nodup := h.nodup
  named := h.named
  quorum := h.quorum

/-- A strict majority of the members may become the quorum, whatever the old one was. -/
theorem requorum {quorum : Word}
    (hvotes : ∀ s ∈ e.roster.seats, s.vote = (standing s.member cs).getD Vote.blank)
    (hnodup : e.roster.members.Nodup) (hnamed : e.tally.Named)
    (hmajority : Quorum.least e.roster.count ≤ quorum) : (e.requorum quorum).Faithful cs where
  votes := by simpa using hvotes
  nodup := by simpa using hnodup
  named := by simpa using hnamed
  quorum := .inr (by simpa using hmajority)

section Processor

variable [ReportProcessor π ε]

theorem amends {settles : Bool} (h : e.Faithful cs) (hc : e.Amends now c e₁ settles) :
    e₁.Faithful (cs ++ [c]) := by
  have hnamed : e₁.tally.Named := hc.named h.named
  cases hc with
  | grantRole _ => exact (h.append_of_revise fun _ _ => rfl).congr (by simp) (by simp) hnamed
  | revokeRole _ => exact (h.append_of_revise fun _ _ => rfl).congr (by simp) (by simp) hnamed
  | updateInitialEpoch _ _ _ =>
    exact (h.append_of_revise fun _ _ => rfl).congr (by simp) (by simp) hnamed
  | setFrameConfig _ _ =>
    exact (h.append_of_revise fun _ _ => rfl).congr (by simp) (by simp) hnamed
  | setFastLane _ _ =>
    exact (h.append_of_revise fun _ _ => rfl).congr (by simp) (by simp) hnamed
  | @setQuorum caller quorum hq =>
    have hcalls := h.append_of_revise (c := .setQuorum caller quorum) fun _ _ => rfl
    exact requorum hcalls.votes h.nodup h.named hq.majority
  | @disableConsensus caller hq =>
    have hcalls := h.append_of_revise (c := .disableConsensus caller) fun _ _ => rfl
    exact requorum hcalls.votes h.nodup h.named hq.majority
  | @addMember _ member quorum roster _ hr hq =>
    refine requorum ?_ (Roster.nodup_insert hr h.nodup) h.named hq.majority
    intro s hs
    rw [standing_append_singleton, Command.revise]
    obtain ⟨hold, hother⟩ | rfl := Roster.mem_of_mem_insert hr hs
    · rw [if_neg fun h => hother h.symm]
      exact h.votes s hold
    · -- Whatever was voted before joining no longer stands.
      rw [if_pos rfl]
      rfl
  | @removeMember _ member quorum roster vote _ hr hq =>
    refine requorum ?_ (Roster.nodup_remove hr h.nodup) h.named hq.majority
    intro s hs
    rw [standing_append_singleton]
    exact h.votes s (Roster.mem_of_mem_remove hr hs)
  | @submitReport sender vote version admission _ =>
    refine ⟨?_, ?_, hnamed, ?_⟩
    · intro s hs
      obtain ⟨s₀, hs₀, rfl⟩ := List.mem_map.mp hs
      rw [standing_append_singleton, Command.revise]
      -- The seat changes exactly where the standing vote does.
      by_cases hsender : s₀.member = sender
      · simp [hsender]
      · rw [if_neg hsender, if_neg fun h => hsender h.symm]
        exact h.votes s₀ hs₀
    · exact (Roster.members_record e.roster sender vote).symm ▸ h.nodup
    · have hmembers : (e.recordVote sender vote).roster.members = e.roster.members :=
        Roster.members_record _ _ _
      have hcount : (e.recordVote sender vote).roster.count = e.roster.count :=
        Roster.count_record _ _ _
      rw [hmembers, hcount]
      exact h.quorum

theorem performed {r : Reply (Error ε) (Engine π) (Option π)} (h : e.Faithful cs)
    (hr : e.Performed now c r) :
    r.state.Faithful (cs ++ if r.result.isOk then [c] else []) := by
  cases hr with
  | refused _ => simpa [Except.isOk, Except.toBool] using h
  | amended hamends => exact h.amends hamends
  | settled hamends hs => exact (h.amends hamends).of_sameVotes hs.sameVotes
  | @undone _ _ e₂ _ _ _ =>
    -- The processor keeps what it has seen, but no vote is the processor's.
    have hkept : { e with processor := e₂.processor }.Faithful cs := h.congr rfl rfl h.named
    simpa [Except.isOk, Except.toBool] using hkept
  | replaced _ _ _ _ => exact (h.append_of_revise fun _ _ => rfl).congr rfl rfl h.named

/-- Whatever happens to an engine, the seats keep telling what the accepted calls tell. -/
theorem act (h : e.Faithful cs) (now : Word) (a : Act π) :
    (e.act now a).Faithful (cs ++ e.acceptedIn now a) := by
  cases a with
  | call c => exact h.performed (e.performed now c)
  | tend f =>
    rw [acceptedIn, List.append_nil]
    exact h.congr rfl rfl h.named
  | drain =>
    rw [acceptedIn, List.append_nil]
    exact h.congr rfl rfl h.named

theorem after (h : e.Faithful cs) (run : List (Word × Act π)) :
    (e.after run).Faithful (cs ++ e.accepted run) :=
  invariant_after (fun _ _ now a h => h.act now a) h run

end Processor

/-! ### Counting -/

/-- As many seats hold a vote for a report as members let it stand. -/
theorem countP_seats (h : e.Faithful cs) {v : Vote} (hv : v.report ≠ Octets.zero) :
    e.roster.seats.countP (·.vote = v) =
      e.roster.members.countP (fun a => standing a cs = some v) := by
  rw [Roster.members, List.countP_map]
  refine List.countP_congr fun s hs => ?_
  simp only [decide_eq_true_eq, Function.comp_apply, h.votes s hs]
  cases hstanding : standing s.member cs with
  | none =>
    -- The blank vote is for no report.
    constructor
    · rintro rfl
      exact absurd rfl hv
    · intro h
      cases h
  | some w => simp

theorem toNat_support (h : e.Faithful cs) (hsize : e.roster.size < UInt64.size) {v : Vote}
    (hv : v.report ≠ Octets.zero) :
    (e.roster.support v).toNat = e.roster.members.countP (fun a => standing a cs = some v) := by
  rw [Roster.toNat_support hsize]
  exact h.countP_seats hv

theorem majority_le_quorum (hsize : e.roster.size < UInt64.size)
    (h : Quorum.least e.roster.count ≤ e.quorum) : e.roster.size / 2 + 1 ≤ e.quorum.toNat := by
  have hcount : e.roster.count.toNat = e.roster.size := UInt64.toNat_ofNat_of_lt' hsize
  rwa [UInt64.le_iff_toNat_le, Quorum.toNat_least, hcount] at h

end Faithful

/-! ### Agreements -/

/-- What an agreement on a report for a reference slot stands for, with the calls accepted so
far. -/
structure HasMajority (e : Engine π) (now : Word) (cs : List (Command π)) (refSlot : Word)
    (report : Digest) (support : Word) : Prop where
  current : ∃ f, e.schedule.frameAt now = .ok f ∧ f.refSlot = refSlot
  nonzero : report ≠ Octets.zero
  nodup : e.roster.members.Nodup
  /-- The members whose last vote is for the report are counted. -/
  counted : support.toNat =
    e.roster.members.countP (fun a => standing a cs = some ⟨refSlot, report⟩)
  reached : e.quorum ≤ support
  majority : e.roster.size / 2 + 1 ≤ e.quorum.toNat

variable [ReportProcessor π ε]

theorem faithful_of_create {setup : Setup} {p : π} (h : create setup p = .ok e) :
    e.Faithful [] := by
  have hcreated := created_of_create h
  refine ⟨?_, ?_, ?_, .inl ⟨hcreated.quorum, ?_⟩⟩
  · rw [hcreated.roster]
    exact nofun
  · rw [hcreated.roster]
    exact List.nodup_nil
  · rw [hcreated.tally]
    exact nofun
  · rw [hcreated.roster]
    rfl

/-- An event that tells of an agreement stands for a majority. -/
theorem Faithful.hasMajority (h : e.Faithful cs) {refSlot support : Word} {report : Digest}
    (hmem : .consensusReached refSlot report support ∈ e.emitted now c)
    (hsize : (e.perform now c).state.roster.size < UInt64.size - 1) :
    (e.perform now c).state.HasMajority now (cs ++ e.acceptedIn now (.call c)) refSlot report
      support := by
  have hafter : (e.perform now c).state.Faithful (cs ++ e.acceptedIn now (.call c)) :=
    h.act now (.call c)
  obtain ⟨e₁, f, v, hamends, hopen, winner, rfl, rfl, rfl, hsame, -⟩ :=
    (e.performed now c).reached (e.events_perform now c) hmem
  obtain ⟨hnamed, hsupport, hpos, hquorum⟩ := Tally.exists_of_winner winner
  have hreport : v.report ≠ Octets.zero := hamends.named h.named _ hnamed
  have hcount : v.support.toNat = (e.perform now c).state.roster.members.countP (fun a =>
      standing a (cs ++ e.acceptedIn now (.call c)) = some ⟨f.refSlot, v.report⟩) := by
    -- The votes were settled after the change, on the seats that remain.
    rw [hsupport, ← hsame.roster]
    exact hafter.toNat_support (by omega) hreport
  refine ⟨⟨f, ?_, rfl⟩, hreport, hafter.nodup, hcount, ?_, ?_⟩
  · rw [hsame.schedule]
    exact hopen.current
  · rw [hsame.quorum]
    exact hquorum
  · refine Faithful.majority_le_quorum (by omega) ?_
    obtain ⟨-, hempty⟩ | hmajority := hafter.quorum
    · -- Nobody stands behind a report if there are no members.
      have hzero : v.support.toNat = 0 := by
        rw [hcount]
        exact (congrArg (List.countP _) hempty).trans List.countP_nil
      rw [UInt64.lt_iff_toNat_lt, hzero] at hpos
      exact absurd hpos (Nat.not_lt_zero _)
    · exact hmajority

/-- Throughout every run of a new engine, whatever its processor does and whenever the calls come,
the quorum is a strict majority once one is set, and an event that tells of an agreement stands for
a majority of the members. -/
theorem majority_of_reached {setup : Setup} {p : π} {e₀ : Engine π} (h : create setup p = .ok e₀)
    (run : List (Word × Act π)) :
    ((e₀.after run).roster.size < UInt64.size - 1 →
      (e₀.after run).quorum = 0 ∧ (e₀.after run).roster.members = [] ∨
        (e₀.after run).roster.size / 2 + 1 ≤ (e₀.after run).quorum.toNat) ∧
      ∀ now c refSlot report support,
        .consensusReached refSlot report support ∈ (e₀.after run).emitted now c →
        (e₀.after (run ++ [(now, .call c)])).roster.size < UInt64.size - 1 →
        (e₀.after (run ++ [(now, .call c)])).HasMajority now (e₀.accepted (run ++ [(now, .call c)]))
          refSlot report support := by
  have hrun : (e₀.after run).Faithful (e₀.accepted run) := (faithful_of_create h).after run
  refine ⟨?_, ?_⟩
  · intro hsize
    exact hrun.quorum.imp_right (Faithful.majority_le_quorum (by omega))
  · intro now c refSlot report support hmem hsize
    rw [after_append] at hsize ⊢
    rw [accepted_append]
    have hmajority := hrun.hasMajority hmem hsize
    simpa [accepted, after, act] using hmajority

/-- When the second of two members names the same report as the first, both stand behind it. -/
theorem majority_of_two_votes :
    let admin : Address := .ofLowByte 9
    let report : Digest := Octets.replicate 32 7
    let setup : Setup := ⟨.ofLowByte 8, ⟨32, 12, 100⟩, 1, 0, admin⟩
    let recorder : Recorder := { address := .ofLowByte 7, version := 1, processingSlot := 0 }
    let run : List (Word × Act Recorder) :=
      [.grantRole admin .manageMembersAndQuorum admin, .addMember admin (.ofLowByte 1) 1,
        .addMember admin (.ofLowByte 2) 2, .updateInitialEpoch admin 1,
        .submitReport (.ofLowByte 1) ⟨31, report⟩ 1].map fun c => (484, .call c)
    let last : Command Recorder := .submitReport (.ofLowByte 2) ⟨31, report⟩ 1
    ∃ e₀, create setup recorder = .ok e₀ ∧
      (e₀.after (run ++ [(484, .call last)])).HasMajority 484
        (e₀.accepted (run ++ [(484, .call last)])) 31 report 2 := by
  intro admin report setup recorder run last
  have hrun : ((create setup recorder).toOption.map fun e₀ =>
      ((e₀.after run).emitted 484 last, (e₀.after (run ++ [(484, .call last)])).roster.size)) =
      some ([.reportReceived 31 (.ofLowByte 2) report, .consensusReached 31 report 2], 2) := by
    decide +kernel
  cases hmade : create setup recorder with
  | error cause => simp [hmade, Except.toOption] at hrun
  | ok e₀ =>
    rw [hmade] at hrun
    obtain ⟨hemitted, hsize⟩ := Prod.mk.inj (Option.some.inj hrun)
    refine ⟨e₀, rfl, (majority_of_reached hmade run).2 484 last 31 report 2 ?_ ?_⟩
    · rw [hemitted]
      simp
    · rw [hsize]
      decide

end ReportQuorum.Engine
