import ReportQuorum.Proofs.Majority
import ReportQuorum.Proofs.Refusals

/-!
# Who may change what

Each part of an engine is in the care of a role, and some parts are changed by more than one call: a
member who joins or leaves brings a quorum along, and the layout of frames has three calls. Which
part a call has changed tells what its caller held when it was made. The roles themselves are in the
care of the default admins, so they stay as they are once there is none.

## Main definitions

* `Engine.Command.caller`: who makes a call
* `Engine.Command.isGrant`: a call is about roles
* `Engine.Authorized`: whatever a call has changed was for its caller to change

## Main results

* `Engine.Amends.authorized`, `Engine.Performed.authorized`: every call keeps to what is its
  caller's
* `Engine.roles_after`: without an admin the role table stays
* `Engine.authorized_of_create`: both, for every engine that was once new
-/

namespace ReportQuorum.Engine

open ReportProcessor (Asked)

variable {π ε : Type}

/-- Who makes a call. -/
def Command.caller : Command π → Address
  | .grantRole caller _ _ => caller
  | .revokeRole caller _ _ => caller
  | .updateInitialEpoch caller _ => caller
  | .setFrameConfig caller _ _ => caller
  | .setFastLane caller _ => caller
  | .addMember caller _ _ => caller
  | .removeMember caller _ _ => caller
  | .setQuorum caller _ => caller
  | .disableConsensus caller => caller
  | .submitReport sender _ _ => sender
  | .setReportProcessor caller _ => caller

/-- Whether a call is about roles. -/
def Command.isGrant : Command π → Bool
  | .grantRole .. => true
  | .revokeRole .. => true
  | _ => false

variable [ReportProcessor π ε] {e e₀ e₁ e₂ : Engine π} {now : Word} {c : Command π}
  {settles : Bool}

/-- Whatever a call has changed was for its caller to change, by the roles of the moment before. -/
structure Authorized (e : Engine π) (now : Word) (c : Command π) (e' : Engine π) : Prop where
  members : e'.roster.members ≠ e.roster.members →
    e.roles.holds .manageMembersAndQuorum c.caller = true
  quorum : e'.quorum ≠ e.quorum → e'.quorum ≠ Quorum.unreachable →
    e.roles.holds .manageMembersAndQuorum c.caller = true
  disabled : e'.quorum ≠ e.quorum → e'.quorum = Quorum.unreachable →
    e.roles.holds .disableConsensus c.caller = true
  epochsPerFrame : e'.schedule.layout.epochsPerFrame ≠ e.schedule.layout.epochsPerFrame →
    e.roles.holds .manageFrameConfig c.caller = true
  initialEpoch : e'.schedule.layout.initialEpoch ≠ e.schedule.layout.initialEpoch →
    e.roles.holds .manageFrameConfig c.caller = true ∨
      e.roles.holds .defaultAdmin c.caller = true ∧ e.schedule.isActive now = false
  fastLane : e'.schedule.layout.fastLaneSlots ≠ e.schedule.layout.fastLaneSlots →
    e.roles.holds .manageFrameConfig c.caller = true ∨
      e.roles.holds .manageFastLaneConfig c.caller = true
  /-- The processor is the same one, though it may have been asked for something. -/
  processor : ¬ Asked now e.address e.processor e'.processor →
    e.roles.holds .manageReportProcessor c.caller = true
  roles : e'.roles ≠ e.roles → e.roles.holds .defaultAdmin c.caller = true
  /-- Whoever is a member before and after the call has changed its vote only by voting. -/
  votes : ∀ a v v', e.roster.vote? a = some v → e'.roster.vote? a = some v' → v' ≠ v →
    ∃ version, c = .submitReport a v' version

/-! ### What a change needs, part by part -/

theorem Amends.manages_members (h : e.Amends now c e₁ settles)
    (hchanged : e₁.roster.members ≠ e.roster.members) :
    e.roles.holds .manageMembersAndQuorum c.caller = true := by
  cases h with
  | addMember hrole _ _ => exact hrole
  | removeMember hrole _ _ => exact hrole
  | submitReport _ => exact absurd (Roster.members_record ..) hchanged
  | _ => exact absurd (by simp) hchanged

/-- The role depends on the new quorum, whichever call brings it. -/
theorem Amends.manages_quorum (h : e.Amends now c e₁ settles) (hchanged : e₁.quorum ≠ e.quorum) :
    e.roles.holds (quorumRole e₁.quorum) c.caller = true := by
  cases h with
  | addMember _ _ hq =>
    rw [requorum_quorum] at hchanged ⊢
    exact hq.role hchanged
  | removeMember _ _ hq =>
    rw [requorum_quorum] at hchanged ⊢
    exact hq.role hchanged
  | setQuorum hq =>
    rw [requorum_quorum] at hchanged ⊢
    exact hq.role hchanged
  | disableConsensus hq =>
    rw [requorum_quorum] at hchanged ⊢
    exact hq.role hchanged
  | submitReport _ => exact absurd rfl hchanged
  | _ => exact absurd (by simp) hchanged

theorem Amends.manages_epochsPerFrame (h : e.Amends now c e₁ settles)
    (hchanged : e₁.schedule.layout.epochsPerFrame ≠ e.schedule.layout.epochsPerFrame) :
    e.roles.holds .manageFrameConfig c.caller = true := by
  cases h with
  | setFrameConfig hrole _ => exact hrole
  | updateInitialEpoch _ hs _ =>
    obtain ⟨-, -, rfl, -⟩ := Schedule.setInitialEpoch_eq_ok.mp hs
    exact absurd (by simp) hchanged
  | setFastLane _ hs =>
    obtain rfl := Schedule.setFastLane_eq_ok hs
    exact absurd (by simp) hchanged
  | _ => exact absurd (by simp [emit, recordVote]) hchanged

/-- A default admin moves the initial epoch only as long as it has not come; a change of the layout
moves it as well. -/
theorem Amends.manages_initialEpoch (h : e.Amends now c e₁ settles)
    (hchanged : e₁.schedule.layout.initialEpoch ≠ e.schedule.layout.initialEpoch) :
    e.roles.holds .manageFrameConfig c.caller = true ∨
      e.roles.holds .defaultAdmin c.caller = true ∧ e.schedule.isActive now = false := by
  cases h with
  | setFrameConfig hrole _ => exact .inl hrole
  | updateInitialEpoch hrole hs _ =>
    obtain ⟨-, hinactive, -, -⟩ := Schedule.setInitialEpoch_eq_ok.mp hs
    exact .inr ⟨hrole, hinactive⟩
  | setFastLane _ hs =>
    obtain rfl := Schedule.setFastLane_eq_ok hs
    exact absurd (by simp) hchanged
  | _ => exact absurd (by simp [emit, recordVote]) hchanged

theorem Amends.manages_fastLane (h : e.Amends now c e₁ settles)
    (hchanged : e₁.schedule.layout.fastLaneSlots ≠ e.schedule.layout.fastLaneSlots) :
    e.roles.holds .manageFrameConfig c.caller = true ∨
      e.roles.holds .manageFastLaneConfig c.caller = true := by
  cases h with
  | setFrameConfig hrole _ => exact .inl hrole
  | setFastLane hrole _ => exact .inr hrole
  | updateInitialEpoch _ hs _ =>
    obtain ⟨-, -, rfl, -⟩ := Schedule.setInitialEpoch_eq_ok.mp hs
    exact absurd (by simp) hchanged
  | _ => exact absurd (by simp [emit, recordVote]) hchanged

theorem Amends.roles_eq (h : e.Amends now c e₁ settles) (hc : c.isGrant = false) :
    e₁.roles = e.roles := by
  cases h with
  | grantRole _ => cases hc
  | revokeRole _ => cases hc
  | _ => simp [emit, recordVote]

theorem Amends.manages_roles (h : e.Amends now c e₁ settles) (hchanged : e₁.roles ≠ e.roles) :
    e.roles.holds .defaultAdmin c.caller = true := by
  cases h with
  | grantRole hrole => exact hrole
  | revokeRole hrole => exact hrole
  | _ => exact absurd (by simp [emit, recordVote]) hchanged

/-- Nobody's vote changes but that of a member who votes: who joins or leaves takes no other's vote
along. -/
theorem Amends.votes_of_ne (h : e.Amends now c e₁ settles) (hnodup : e.roster.members.Nodup)
    {a : Address} {v v' : Vote} (hv : e.roster.vote? a = some v)
    (hv' : e₁.roster.vote? a = some v') (hchanged : v' ≠ v) :
    ∃ version, c = .submitReport a v' version := by
  have hsame : e₁.roster.vote? a ≠ some v := fun hsame =>
    hchanged (Option.some.inj (hv'.symm.trans hsame))
  cases h with
  | addMember _ hr _ =>
    rw [requorum_roster] at hsame
    exact absurd (Roster.vote?_insert hr hv) hsame
  | removeMember _ hr _ =>
    rw [requorum_roster] at hv'
    have hold := Roster.vote?_of_remove hr hnodup hv'
    exact absurd (Option.some.inj (hold.symm.trans hv)) hchanged
  | @submitReport sender vote version _ hjudge =>
    by_cases hsender : a = sender
    · subst hsender
      obtain ⟨f, hvote, -⟩ := admissible_of_judge hjudge
      have hrecorded : (e.roster.record a vote).vote? a = some vote :=
        Roster.vote?_record hvote.member vote
      obtain rfl : vote = v' := Option.some.inj (hrecorded.symm.trans hv')
      exact ⟨version, rfl⟩
    · have hother : (e.roster.record sender vote).vote? a = e.roster.vote? a :=
        Roster.vote?_record_of_ne hsender vote
      exact absurd (hother.trans hv) hsame
  | _ => exact absurd (by simpa using hv) hsame

/-! ### Every call -/

theorem Amends.authorized (h : e.Amends now c e₁ settles) (hnodup : e.roster.members.Nodup) :
    e.Authorized now c e₁ where
  members := h.manages_members
  quorum hchanged hreachable := by
    have hrole := h.manages_quorum hchanged
    rwa [quorumRole, if_neg hreachable] at hrole
  disabled hchanged hunreachable := by
    have hrole := h.manages_quorum hchanged
    rwa [quorumRole, if_pos hunreachable] at hrole
  epochsPerFrame := h.manages_epochsPerFrame
  initialEpoch := h.manages_initialEpoch
  fastLane := h.manages_fastLane
  processor hreplaced := by
    rw [h.keeps.processor] at hreplaced
    exact absurd .nothing hreplaced
  roles := h.manages_roles
  votes _ _ _ hv hv' hchanged := h.votes_of_ne hnodup hv hv' hchanged

theorem Authorized.refl (e : Engine π) (now : Word) (c : Command π) : e.Authorized now c e where
  members h := absurd rfl h
  quorum h _ := absurd rfl h
  disabled h _ := absurd rfl h
  epochsPerFrame h := absurd rfl h
  initialEpoch h := absurd rfl h
  fastLane h := absurd rfl h
  processor h := absurd .nothing h
  roles h := absurd rfl h
  votes _ _ _ hv hv' h := absurd (Option.some.inj (hv'.symm.trans hv)) h

/-- What becomes of the processor afterwards needs a role only if it is replaced. -/
theorem Authorized.of_sameVotes (h : e.Authorized now c e₁) (hsame : e₁.SameVotes e₂)
    (hprocessor : ¬ Asked now e.address e.processor e₂.processor →
      e.roles.holds .manageReportProcessor c.caller = true) : e.Authorized now c e₂ where
  members := hsame.roster ▸ h.members
  quorum := hsame.quorum ▸ h.quorum
  disabled := hsame.quorum ▸ h.disabled
  epochsPerFrame := hsame.schedule ▸ h.epochsPerFrame
  initialEpoch := hsame.schedule ▸ h.initialEpoch
  fastLane := hsame.schedule ▸ h.fastLane
  processor := hprocessor
  roles := hsame.roles ▸ h.roles
  votes := hsame.roster ▸ h.votes

/-- A settlement only asks the processor that was there before the call. -/
theorem Amends.asked (h : e.Amends now c e₁ settles) {r : Reply (Error ε) (Engine π) Unit}
    (hs : e₁.Settled now r) : Asked now e.address e.processor r.state.processor := by
  have hasked := hs.asked
  rwa [h.keeps.address, h.keeps.processor] at hasked

theorem Performed.authorized {r : Reply (Error ε) (Engine π) (Option π)}
    (h : e.Performed now c r) (hnodup : e.roster.members.Nodup) :
    e.Authorized now c r.state := by
  cases h with
  | refused _ => exact .refl e now c
  | amended hamends => exact hamends.authorized hnodup
  | settled hamends hs =>
    have hasked := hamends.asked hs
    exact (hamends.authorized hnodup).of_sameVotes hs.sameVotes fun h => absurd hasked h
  | undone hamends hs =>
    have hasked := hamends.asked hs
    exact (Authorized.refl e now c).of_sameVotes ⟨rfl, rfl, rfl, rfl, rfl, rfl, rfl⟩
      fun h => absurd hasked h
  | replaced hrole _ _ _ =>
    exact (Authorized.refl e now _).of_sameVotes ⟨rfl, rfl, rfl, rfl, rfl, rfl, rfl⟩
      fun _ => hrole

/-! ### Without an admin -/

/-- Only calls about roles change roles. -/
theorem Performed.roles_eq {r : Reply (Error ε) (Engine π) (Option π)} (h : e.Performed now c r)
    (hc : c.isGrant = false) : r.state.roles = e.roles := by
  cases h with
  | amended hamends => exact hamends.roles_eq hc
  | settled hamends hs => exact hs.sameVotes.roles.trans (hamends.roles_eq hc)
  | _ => rfl

theorem Performed.manages_roles {r : Reply (Error ε) (Engine π) (Option π)}
    (h : e.Performed now c r) (hchanged : r.state.roles ≠ e.roles) :
    e.roles.holds .defaultAdmin c.caller = true := by
  cases h with
  | amended hamends => exact hamends.manages_roles hchanged
  | settled hamends hs =>
    rw [hs.sameVotes.roles] at hchanged
    exact hamends.manages_roles hchanged
  | _ => exact absurd rfl hchanged

theorem roles_act (hnobody : ∀ a, e.roles.holds .defaultAdmin a = false) (now : Word)
    (a : Act π) : (e.act now a).roles = e.roles := by
  cases a with
  | call c =>
    by_contra hchanged
    have hadmin := (e.performed now c).manages_roles hchanged
    rw [hnobody] at hadmin
    cases hadmin
  | tend f => rfl
  | drain => rfl

/-- Once nobody is an admin, nobody becomes one, and the role table stays whatever happens. -/
theorem roles_after (hnobody : ∀ a, e.roles.holds .defaultAdmin a = false)
    (run : List (Word × Act π)) : (e.after run).roles = e.roles := by
  induction run generalizing e with
  | nil => rfl
  | cons a run ih =>
    have hroles := roles_act hnobody a.1 a.2
    rw [after, ih (hroles ▸ hnobody), hroles]

/-- Whatever has happened to an engine since it was new, every call changes only what its caller may
change; and if nobody is an admin by then, the role table stays from then on. -/
theorem authorized_of_create {setup : Setup} {p : π} (h : create setup p = .ok e₀)
    (run : List (Word × Act π)) :
    let e := e₀.after run
    (∀ now c, e.Authorized now c (e.perform now c).state) ∧
      ((∀ a, e.roles.holds .defaultAdmin a = false) →
        ∀ later : List (Word × Act π), (e.after later).roles = e.roles) := by
  intro e
  have hfaithful := (faithful_of_create h).after run
  refine ⟨fun now c => ?_, fun hnobody later => roles_after hnobody later⟩
  exact (e.performed now c).authorized hfaithful.nodup

/-- The admin hands the committee over to a keeper and resigns. When the keeper takes out the second
of three members and makes the quorum unreachable, it holds both roles for that; the first member's
vote is still there, and the roles will never change again. -/
theorem keeper_of_two_roles :
    let admin : Address := .ofLowByte 9
    let keeper : Address := .ofLowByte 5
    let vote : Vote := ⟨31, Octets.replicate 32 7⟩
    let setup : Setup := ⟨.ofLowByte 8, ⟨32, 12, 100⟩, 1, 0, admin⟩
    let recorder : Recorder := { address := .ofLowByte 7, version := 1, processingSlot := 0 }
    let run : List (Word × Act Recorder) :=
      [.grantRole admin .manageMembersAndQuorum keeper, .grantRole admin .disableConsensus keeper,
        .addMember keeper (.ofLowByte 1) 1, .addMember keeper (.ofLowByte 2) 2,
        .addMember keeper (.ofLowByte 3) 2, .updateInitialEpoch admin 1,
        .revokeRole admin .defaultAdmin admin,
        .submitReport (.ofLowByte 1) vote 1].map fun c => (484, .call c)
    let last : Command Recorder := .removeMember keeper (.ofLowByte 2) Quorum.unreachable
    ∃ e₀, create setup recorder = .ok e₀ ∧
      let e := e₀.after run
      let e' := (e.perform 484 last).state
      e'.roster.members = [.ofLowByte 1, .ofLowByte 3] ∧ e'.quorum = Quorum.unreachable ∧
        e.roles.holds .manageMembersAndQuorum keeper = true ∧
        e.roles.holds .disableConsensus keeper = true ∧
        e.roster.vote? (.ofLowByte 1) = some vote ∧ e'.roster.vote? (.ofLowByte 1) = some vote ∧
        ∀ later : List (Word × Act Recorder), (e.after later).roles = e.roles := by
  intro admin keeper vote setup recorder run last
  have hrun : (create setup recorder).toOption.any (fun e₀ =>
      let e := e₀.after run
      let e' := (e.perform 484 last).state
      decide (e.roster.members = [.ofLowByte 1, .ofLowByte 2, .ofLowByte 3] ∧ e.quorum = 2 ∧
        e.roles = ⟨[(.manageMembersAndQuorum, keeper), (.disableConsensus, keeper)]⟩ ∧
        e.roster.vote? (.ofLowByte 1) = some vote ∧
        e'.roster.members = [.ofLowByte 1, .ofLowByte 3] ∧ e'.quorum = Quorum.unreachable)) =
        true := by
    decide +kernel
  obtain ⟨e₀, hmade, hmembers, hquorum, hroles, hvote, hmembers', hquorum'⟩ := exists_of_any hrun
  obtain ⟨hauthorized, hfrozen⟩ := authorized_of_create hmade run
  have hremoval := hauthorized 484 last
  have hmanages := hremoval.members (by rw [hmembers', hmembers]; decide)
  have hdisables := hremoval.disabled (by rw [hquorum', hquorum]; decide) hquorum'
  have hkept : ((e₀.after run).perform 484 last).state.roster.vote? (.ofLowByte 1) =
      some vote := by
    obtain ⟨v', hv'⟩ := Roster.exists_vote? (Roster.contains_iff.mpr (by
      rw [hmembers']
      exact List.mem_cons_self ..))
    -- A removal is no vote.
    by_contra hchanged
    obtain ⟨version, hvoted⟩ := hremoval.votes _ _ v' hvote hv' fun hsame =>
      hchanged (hsame ▸ hv')
    simp [last] at hvoted
  refine ⟨e₀, hmade, hmembers', hquorum', hmanages, hdisables, hvote, hkept, hfrozen fun a => ?_⟩
  rw [hroles]
  simp [RoleTable.holds]

end ReportQuorum.Engine
