import ReportQuorum.Engine.Command
import ReportQuorum.Proofs.Frames
import ReportQuorum.Proofs.Settlement
import ReportQuorum.Proofs.Success
import ReportQuorum.Proofs.Votes

/-!
# How a call of an engine ends

A call is either refused or makes a change of the engine's own, after which the votes are settled
if the change may have moved the majority. What every call changes, and under which conditions, is
listed once; properties of all calls go through the list.

## Main definitions

* `Engine.Created`: what a new engine is
* `Engine.requorum`: the engine with another quorum
* `Engine.Amends`: what an accepted call changes before the votes are settled
* `Engine.Performed`: the ways in which a call ends
* `Engine.Keeps`: what a change leaves alone
* `Engine.Own`: the engine refuses on its own, if at all
* `Engine.Answered`: how a call is answered, apart from what becomes of the settlement

## Main results

* `Engine.answered`, `Engine.performed`: these are all the ways
* `Engine.Amends.keeps`: only the settlement and a replacement touch the processor
-/

namespace ReportQuorum.Engine

variable {π ε : Type} {e : Engine π} {now : Word}

@[simp] theorem demand_eq_ok {role : Role} {caller : Address} {u : Unit} :
    e.demand (ε := ε) role caller = .ok u ↔ e.roles.holds role caller = true := by
  rw [demand, mapError_eq_ok, RoleTable.check_eq_ok]

/-- A role is granted by a holder of the default admin role. -/
theorem grantRole_eq_ok {caller account : Address} {role : Role} {e' : Engine π} :
    e.grantRole (ε := ε) caller role account = ⟨.ok (), e'⟩ ↔
      e.roles.holds .defaultAdmin caller = true ∧
        { e with roles := e.roles.insert role account }.emitIf (!e.roles.holds role account)
          (.roleGranted role account caller) = e' := by
  simp only [grantRole, Reply.ofExcept_eq_ok, bind_eq_ok, mapError_eq_ok, RoleTable.grant,
    RoleTable.check_eq_ok, pure_eq_ok]
  constructor
  · rintro ⟨_, ⟨_, hadmin, rfl⟩, rfl⟩
    exact ⟨hadmin, rfl⟩
  · rintro ⟨hadmin, rfl⟩
    exact ⟨_, ⟨(), hadmin, rfl⟩, rfl⟩

/-- Whether a call replaces the processor. -/
def Command.replaces : Command π → Bool
  | .setReportProcessor _ _ => true
  | _ => false

/-! ### Changes of the quorum -/

/-- The engine with a quorum. An event tells of it if it differs from the old one. -/
def requorum (e : Engine π) (quorum : Word) : Engine π :=
  if quorum = e.quorum then e
  else { e with quorum }.emit (.quorumSet quorum e.roster.count e.quorum)

/-- A caller may set a quorum: it is a strict majority of the members, and a new one needs a
role. -/
structure MaySetQuorum (e : Engine π) (caller : Address) (quorum : Word) : Prop where
  majority : Quorum.least e.roster.count ≤ quorum
  role : quorum ≠ e.quorum → e.roles.holds (quorumRole quorum) caller = true

theorem withQuorum_eq_ok {caller : Address} {quorum : Word} {e' : Engine π} :
    e.withQuorum (ε := ε) caller quorum = .ok e' ↔
      e.MaySetQuorum caller quorum ∧ e.requorum quorum = e' := by
  rw [withQuorum, requorum]
  by_cases hsame : quorum = e.quorum
  · simp only [hsame, if_true, bind_eq_ok, mapError_eq_ok, Quorum.check_eq_ok, pure_eq_ok]
    constructor
    · rintro ⟨-, hmajority, rfl⟩
      exact ⟨⟨hmajority, fun h => absurd rfl h⟩, rfl⟩
    · rintro ⟨hmay, rfl⟩
      exact ⟨(), hmay.majority, rfl⟩
  · simp only [hsame, if_false, bind_eq_ok, mapError_eq_ok, Quorum.check_eq_ok, pure_eq_ok,
      demand_eq_ok]
    constructor
    · rintro ⟨-, hmajority, -, hrole, rfl⟩
      exact ⟨⟨hmajority, fun _ => hrole⟩, rfl⟩
    · rintro ⟨hmay, rfl⟩
      exact ⟨(), hmay.majority, (), hmay.role hsame, rfl⟩

/-! ### Fields of a changed engine -/

@[simp] theorem emitIf_address (changed : Bool) (event : Event) :
    (e.emitIf changed event).address = e.address := by
  cases changed <;> rfl

@[simp] theorem emitIf_schedule (changed : Bool) (event : Event) :
    (e.emitIf changed event).schedule = e.schedule := by
  cases changed <;> rfl

@[simp] theorem emitIf_roster (changed : Bool) (event : Event) :
    (e.emitIf changed event).roster = e.roster := by
  cases changed <;> rfl

@[simp] theorem emitIf_quorum (changed : Bool) (event : Event) :
    (e.emitIf changed event).quorum = e.quorum := by
  cases changed <;> rfl

@[simp] theorem emitIf_tally (changed : Bool) (event : Event) :
    (e.emitIf changed event).tally = e.tally := by
  cases changed <;> rfl

@[simp] theorem emitIf_roles (changed : Bool) (event : Event) :
    (e.emitIf changed event).roles = e.roles := by
  cases changed <;> rfl

@[simp] theorem emitIf_processor (changed : Bool) (event : Event) :
    (e.emitIf changed event).processor = e.processor := by
  cases changed <;> rfl

@[simp] theorem requorum_address (quorum : Word) : (e.requorum quorum).address = e.address := by
  rw [requorum]
  split <;> rfl

@[simp] theorem requorum_schedule (quorum : Word) : (e.requorum quorum).schedule = e.schedule := by
  rw [requorum]
  split <;> rfl

@[simp] theorem requorum_roster (quorum : Word) : (e.requorum quorum).roster = e.roster := by
  rw [requorum]
  split <;> rfl

@[simp] theorem requorum_quorum (quorum : Word) : (e.requorum quorum).quorum = quorum := by
  rw [requorum]
  split
  next h => exact h.symm
  next => rfl

@[simp] theorem requorum_tally (quorum : Word) : (e.requorum quorum).tally = e.tally := by
  rw [requorum]
  split <;> rfl

@[simp] theorem requorum_roles (quorum : Word) : (e.requorum quorum).roles = e.roles := by
  rw [requorum]
  split <;> rfl

@[simp] theorem requorum_processor (quorum : Word) :
    (e.requorum quorum).processor = e.processor := by
  rw [requorum]
  split <;> rfl

/-! ### Handing over to another processor -/

/-- A new processor that is accepted was given nothing, or took the report agreed on for the current
frame, which neither processor had started to process. -/
theorem handOver_eq_ok [ReportProcessor π ε] {p p' : π}
    (h : e.handOver (ε := ε) now p = ⟨.ok (), p'⟩) :
    p' = p ∨ ∃ f d, e.schedule.frameAt now = .ok f ∧ e.tally.agreedFor f.refSlot = some d ∧
      ReportProcessor.processingSlot e.processor < f.refSlot ∧
      ReportProcessor.isProcessing p f.refSlot = false ∧
      ReportProcessor.submit p now e.address d f.refSlot (e.schedule.deadlineTime f) =
        ⟨.ok (), p'⟩ := by
  rw [handOver] at h
  cases hout : e.outstanding now p with
  | none =>
    rw [hout] at h
    cases h
    exact .inl rfl
  | some fd =>
    obtain ⟨f, d⟩ := fd
    rw [hout] at h
    dsimp only at h
    rw [outstanding] at hout
    cases hframe : e.schedule.frameAt now with
    | error cause => simp [hframe] at hout
    | ok f₁ =>
      cases hagreed : e.tally.agreedFor f₁.refSlot with
      | none => simp [hframe, hagreed] at hout
      | some d₁ =>
        simp only [hframe, hagreed] at hout
        -- Neither processor has started the slot, and the deadline has not passed.
        split at hout
        · cases hout
        next hfree =>
        split at hout
        · cases hout
        cases hout
        simp only [Bool.or_eq_true, decide_eq_true_eq, not_or, Bool.not_eq_true] at hfree
        cases hsubmit : ReportProcessor.submit p now e.address d f.refSlot
          (e.schedule.deadlineTime f) with
        | mk result q =>
          rw [hsubmit] at h
          cases result with
          | error err => cases h
          | ok u =>
            cases h
            exact .inr ⟨f, d, rfl, hagreed, UInt64.not_le.mp hfree.1, hfree.2, hsubmit⟩

/-! ### New engines -/

/-- What an engine is when it has just been made. -/
structure Created (e : Engine π) (setup : Setup) (processor : π) : Prop where
  address : e.address = setup.address
  schedule : Schedule.dormant setup.grid setup.epochsPerFrame setup.fastLaneSlots = .ok e.schedule
  roster : e.roster = {}
  quorum : e.quorum = 0
  tally : e.tally = {}
  roles : e.roles = .ofAdmin setup.admin
  processor : e.processor = processor

theorem created_of_create [ReportProcessor π ε] {setup : Setup} {processor : π}
    (h : create setup processor = .ok e) : e.Created setup processor := by
  rw [create, refusal_eq_ok (by simp), refusal_eq_ok (by simp)] at h
  obtain ⟨-, -, h⟩ := h
  split at h
  · cases h
  next schedule hschedule =>
    cases h
    constructor <;> simp [emit, hschedule]

/-! ### Accepted calls -/

/-- What an accepted call changes in the engine before the votes are settled, and whether they are
settled after it. -/
inductive Amends [ReportProcessor π ε] (e : Engine π) (now : Word) :
    Command π → Engine π → Bool → Prop
  | grantRole {caller : Address} {role : Role} {account : Address}
      (h : e.roles.holds .defaultAdmin caller = true) :
      Amends e now (.grantRole caller role account)
        ({ e with roles := e.roles.insert role account }.emitIf (!e.roles.holds role account)
          (.roleGranted role account caller)) false
  | revokeRole {caller : Address} {role : Role} {account : Address}
      (h : e.roles.holds .defaultAdmin caller = true) :
      Amends e now (.revokeRole caller role account)
        ({ e with roles := e.roles.erase role account }.emitIf (e.roles.holds role account)
          (.roleRevoked role account caller)) false
  | updateInitialEpoch {caller : Address} {epoch : Word} {s : Schedule} {changed : Bool}
      (h : e.roles.holds .defaultAdmin caller = true)
      (hs : e.schedule.setInitialEpoch now epoch = .ok (s, changed))
      (passed : ¬ s.initialFrame.refSlot < ReportProcessor.processingSlot e.processor) :
      Amends e now (.updateInitialEpoch caller epoch)
        ({ e with schedule := s }.emitIf changed (frameConfigEvent s)) false
  | setFrameConfig {caller : Address} {epochs slots : Word} {s : Schedule}
      {change : Schedule.LayoutChange}
      (h : e.roles.holds .manageFrameConfig caller = true)
      (hs : e.schedule.reconfigure now epochs slots = .ok (s, change)) :
      Amends e now (.setFrameConfig caller epochs slots)
        ({ e with schedule := s }.emitIf change.frames (frameConfigEvent s)
          |>.emitIf change.fastLane (.fastLaneConfigSet slots)) false
  | setFastLane {caller : Address} {slots : Word} {s : Schedule} {changed : Bool}
      (h : e.roles.holds .manageFastLaneConfig caller = true)
      (hs : e.schedule.setFastLane slots = .ok (s, changed)) :
      Amends e now (.setFastLane caller slots)
        ({ e with schedule := s }.emitIf changed (.fastLaneConfigSet slots)) false
  | addMember {caller : Address} {member : Address} {quorum : Word} {roster : Roster}
      (h : e.roles.holds .manageMembersAndQuorum caller = true)
      (hr : e.roster.insert member = .ok roster)
      (hq : { e with roster }.MaySetQuorum caller quorum) :
      Amends e now (.addMember caller member quorum)
        (({ e with roster }.emit (.memberAdded member roster.count quorum)).requorum quorum)
        (e.schedule.isActive now)
  | removeMember {caller : Address} {member : Address} {quorum : Word} {roster : Roster}
      {vote : Vote}
      (h : e.roles.holds .manageMembersAndQuorum caller = true)
      (hr : e.roster.remove member = .ok (roster, vote))
      (hq : { e with roster }.MaySetQuorum caller quorum) :
      Amends e now (.removeMember caller member quorum)
        (({ e with roster }.emit (.memberRemoved member roster.count quorum)).requorum quorum)
        (e.schedule.isActive now)
  | setQuorum {caller : Address} {quorum : Word} (hq : e.MaySetQuorum caller quorum) :
      Amends e now (.setQuorum caller quorum) (e.requorum quorum) (e.schedule.isActive now)
  | disableConsensus {caller : Address} (hq : e.MaySetQuorum caller Quorum.unreachable) :
      Amends e now (.disableConsensus caller) (e.requorum Quorum.unreachable)
        (e.schedule.isActive now)
  | submitReport {sender : Address} {vote : Vote} {version : Word} {admission : Admission}
      (h : e.judge now sender vote version = .ok admission) :
      Amends e now (.submitReport sender vote version) (e.recordVote sender vote)
        (admission = .counted)

/-- The ways in which a call ends. -/
inductive Performed [ReportProcessor π ε] (e : Engine π) (now : Word) :
    Command π → Reply (Error ε) (Engine π) (Option π) → Prop
  /-- It is refused and changes nothing. -/
  | refused {c : Command π} (err : Error ε) : Performed e now c ⟨.error err, e⟩
  /-- It is accepted, and the votes are not settled. -/
  | amended {c : Command π} {e' : Engine π} (h : e.Amends now c e' false) :
      Performed e now c ⟨.ok none, e'⟩
  /-- It is accepted, and the votes are settled after it. -/
  | settled {c : Command π} {e₁ e₂ : Engine π} (h : e.Amends now c e₁ true)
      (hs : e₁.Settled now ⟨.ok (), e₂⟩) : Performed e now c ⟨.ok none, e₂⟩
  /-- Settling the votes fails, and only what the processor has seen of it remains. -/
  | undone {c : Command π} {e₁ e₂ : Engine π} {err : Error ε} (h : e.Amends now c e₁ true)
      (hs : e₁.Settled now ⟨.error err, e₂⟩) :
      Performed e now c ⟨.error err, { e with processor := e₂.processor }⟩
  /-- Another processor takes the place of the present one. -/
  | replaced {caller : Address} {p p' : π} (h : e.roles.holds .manageReportProcessor caller = true)
      (zero : ReportProcessor.address p ≠ Octets.zero)
      (same : ReportProcessor.address p ≠ ReportProcessor.address e.processor)
      (hp : e.handOver (ε := ε) now p = ⟨.ok (), p'⟩) :
      Performed e now (.setReportProcessor caller p)
        ⟨.ok (some e.processor), { e with processor := p' }.emit
          (.reportProcessorSet (ReportProcessor.address p) (ReportProcessor.address e.processor))⟩

/-- What a change leaves alone that is not a settlement or a replacement. -/
structure Keeps (e e₁ : Engine π) : Prop where
  address : e₁.address = e.address
  processor : e₁.processor = e.processor
  grid : e₁.schedule.grid = e.schedule.grid
  agreed : e₁.tally.agreed = e.tally.agreed

theorem Amends.keeps [ReportProcessor π ε] {c : Command π} {e₁ : Engine π} {settles : Bool}
    (h : e.Amends now c e₁ settles) : e.Keeps e₁ := by
  cases h with
  | grantRole _ => constructor <;> simp
  | revokeRole _ => constructor <;> simp
  | updateInitialEpoch _ hs _ =>
    obtain ⟨-, -, rfl, -⟩ := Schedule.setInitialEpoch_eq_ok.mp hs
    constructor <;> simp
  | setFrameConfig _ hs =>
    obtain ⟨-, hgrid, -⟩ := Schedule.reconfigure_eq_ok hs
    constructor <;> simp [hgrid]
  | setFastLane _ hs =>
    obtain rfl := Schedule.setFastLane_eq_ok hs
    constructor <;> simp
  | addMember _ _ _ => constructor <;> simp [emit]
  | removeMember _ _ _ => constructor <;> simp [emit]
  | setQuorum _ => constructor <;> simp
  | disableConsensus _ => constructor <;> simp
  | submitReport _ => constructor <;> rfl

/-- Every report named after a call is one if every report named before it is. -/
theorem Amends.named [ReportProcessor π ε] {c : Command π} {e₁ : Engine π} {settles : Bool}
    (h : e.Amends now c e₁ settles) (hnamed : e.tally.Named) : e₁.tally.Named := by
  cases h with
  | submitReport hjudge =>
    obtain ⟨f, hvote, -⟩ := admissible_of_judge hjudge
    exact hnamed.record hvote.report
  | _ => simpa [emit] using hnamed

/-! ### Refusals of the engine's own -/

/-- Whether an engine refuses a call without its processor having a part in it. -/
def Error.isOwn : Error ε → Bool
  | .processor _ => false
  | _ => true

/-- A sequence of steps is refused, if at all, by the engine itself. -/
def Own {α : Type} (x : Except (Error ε) α) : Prop := ∀ err, x = .error err → err.isOwn = true

namespace Own

variable {ε' α β : Type}

theorem pure (a : α) : Own (Pure.pure a : Except (Error ε) α) := nofun

theorem error {err : Error ε} (h : err.isOwn = true) : Own (Except.error err : Except _ α) := by
  rintro _ ⟨⟩
  exact h

theorem ite {p : Prop} [Decidable p] {x y : Except (Error ε) α} (hx : Own x) (hy : Own y) :
    Own (if p then x else y) := by
  split
  · exact hx
  · exact hy

theorem bind {x : Except (Error ε) α} {f : α → Except (Error ε) β} (hx : Own x)
    (hf : ∀ a, Own (f a)) : Own (x >>= f) := by
  cases x with
  | error err =>
    rintro _ ⟨⟩
    exact hx err rfl
  | ok a => exact hf a

theorem mapError {x : Except ε' α} {f : ε' → Error ε} (hf : ∀ cause, (f cause).isOwn = true) :
    Own (x.mapError f) := by
  cases x with
  | error cause =>
    rintro _ ⟨⟩
    exact hf cause
  | ok a => exact nofun

theorem demand {role : Role} {caller : Address} : Own (e.demand (ε := ε) role caller) :=
  .mapError fun _ => rfl

theorem withQuorum {caller : Address} {quorum : Word} :
    Own (e.withQuorum (ε := ε) caller quorum) := by
  refine .bind (.mapError fun _ => rfl) fun _ => .ite (.pure e) ?_
  exact .bind .demand fun _ => .pure _

theorem judge [ReportProcessor π ε] {sender : Address} {vote : Vote} {version : Word} :
    Own (e.judge now sender vote version) := by
  rw [Engine.judge]
  cases e.roster.indexOf? sender with
  | none => exact .error rfl
  | some i =>
    cases e.schedule.frameAt now with
    | error cause => exact .error rfl
    | ok frame =>
      refine .ite (.error rfl) (.ite (.error rfl) (.ite (.error rfl) (.ite (.error rfl) ?_)))
      refine .ite (.error rfl) (.ite ?_ ?_)
      · exact .ite (.error rfl) (.pure _)
      · exact .ite (.error rfl) (.pure _)

end Own

/-! ### The list is complete -/

/-- How a call is answered that does not replace the processor, apart from what becomes of the
settlement. -/
inductive Answered [ReportProcessor π ε] (e : Engine π) (now : Word) (c : Command π) :
    Reply (Error ε) (Engine π) (Option π) → Prop
  /-- The engine refuses it on its own. -/
  | refused {err : Error ε} (h : err.isOwn = true) : Answered e now c ⟨.error err, e⟩
  /-- It is accepted, and the votes are not settled. -/
  | amended {e' : Engine π} (h : e.Amends now c e' false) : Answered e now c ⟨.ok none, e'⟩
  /-- It makes its change, and then the votes are settled. -/
  | settles {e₁ : Engine π} (h : e.Amends now c e₁ true) :
      Answered e now c (perform.answerNone (e.restoreOnError (e₁.settle now)))

section Complete

variable [ReportProcessor π ε] {c : Command π}

theorem answered_ofExcept {x : Except (Error ε) (Engine π)} (hown : Own x)
    (h : ∀ e', x = .ok e' → e.Amends now c e' false) :
    e.Answered now c (perform.answerNone (.ofExcept e x)) := by
  obtain ⟨err, herror, hx⟩ | ⟨e', hok, hx⟩ := Reply.ofExcept_cases e x
  · rw [hx]
    exact .refused (hown err herror)
  · rw [hx]
    exact .amended (h e' hok)

theorem answered_reform {x : Except (Error ε) (Engine π)} (hown : Own x)
    (h : ∀ e₁, x = .ok e₁ → e.Amends now c e₁ (e₁.schedule.isActive now)) :
    e.Answered now c (perform.answerNone (e.reform now x)) := by
  cases x with
  | error err => exact .refused (hown err rfl)
  | ok e₁ =>
    have hamends := h e₁ rfl
    rw [reform, settleIfActive]
    cases hactive : e₁.schedule.isActive now with
    | false =>
      rw [hactive] at hamends
      exact .amended hamends
    | true =>
      rw [hactive] at hamends
      exact .settles hamends

theorem answered_submitReport (sender : Address) (vote : Vote) (version : Word) :
    e.Answered now (.submitReport sender vote version)
      (perform.answerNone (e.submitReport now sender vote version)) := by
  rw [submitReport]
  cases h : e.judge now sender vote version with
  | error err => exact .refused (Own.judge err h)
  | ok admission =>
    have hamends := Amends.submitReport h
    cases admission with
    | late => exact .amended hamends
    | counted => exact .settles hamends

/-- A call that does not replace the processor is answered in one of these ways. -/
theorem answered (e : Engine π) (now : Word) (hc : c.replaces = false) :
    e.Answered now c (e.perform now c) := by
  cases c with
  | grantRole caller role account =>
    refine answered_ofExcept (.bind (.mapError fun _ => rfl) fun _ => .pure _) fun e' h => ?_
    simp only [bind_eq_ok, mapError_eq_ok, RoleTable.grant, RoleTable.check_eq_ok, pure_eq_ok] at h
    obtain ⟨-, ⟨-, hadmin, rfl⟩, rfl⟩ := h
    exact .grantRole hadmin
  | revokeRole caller role account =>
    refine answered_ofExcept (.bind (.mapError fun _ => rfl) fun _ => .pure _) fun e' h => ?_
    simp only [bind_eq_ok, mapError_eq_ok, RoleTable.revoke, RoleTable.check_eq_ok, pure_eq_ok] at h
    obtain ⟨-, ⟨-, hadmin, rfl⟩, rfl⟩ := h
    exact .revokeRole hadmin
  | updateInitialEpoch caller epoch =>
    refine answered_ofExcept ?_ fun e' h => ?_
    · refine .bind .demand fun _ => .bind (.mapError fun _ => rfl) fun _ => ?_
      exact .ite (.error rfl) (.pure _)
    · simp only [bind_eq_ok, mapError_eq_ok, demand_eq_ok] at h
      obtain ⟨-, hadmin, ⟨s, changed⟩, hs, h⟩ := h
      rw [refusal_eq_ok (by simp), pure_eq_ok] at h
      obtain ⟨hpassed, rfl⟩ := h
      exact .updateInitialEpoch hadmin hs hpassed
  | setFrameConfig caller epochs slots =>
    refine answered_ofExcept
      (.bind .demand fun _ => .bind (.mapError fun _ => rfl) fun _ => .pure _) fun e' h => ?_
    simp only [bind_eq_ok, mapError_eq_ok, demand_eq_ok] at h
    obtain ⟨-, hrole, ⟨s, change⟩, hs, h⟩ := h
    obtain rfl := pure_eq_ok.mp h
    exact .setFrameConfig hrole hs
  | setFastLane caller slots =>
    refine answered_ofExcept
      (.bind .demand fun _ => .bind (.mapError fun _ => rfl) fun _ => .pure _) fun e' h => ?_
    simp only [bind_eq_ok, mapError_eq_ok, demand_eq_ok] at h
    obtain ⟨-, hrole, ⟨s, changed⟩, hs, h⟩ := h
    obtain rfl := pure_eq_ok.mp h
    exact .setFastLane hrole hs
  | addMember caller member quorum =>
    refine answered_reform
      (.bind .demand fun _ => .bind (.mapError fun _ => rfl) fun _ => .withQuorum) fun e₁ h => ?_
    simp only [bind_eq_ok, mapError_eq_ok, demand_eq_ok, withQuorum_eq_ok] at h
    obtain ⟨-, hrole, roster, hr, hq, rfl⟩ := h
    rw [requorum_schedule]
    exact .addMember hrole hr ⟨hq.majority, hq.role⟩
  | removeMember caller member quorum =>
    refine answered_reform
      (.bind .demand fun _ => .bind (.mapError fun _ => rfl) fun _ => .withQuorum) fun e₁ h => ?_
    simp only [bind_eq_ok, mapError_eq_ok, demand_eq_ok] at h
    obtain ⟨-, hrole, ⟨roster, vote⟩, hr, h⟩ := h
    obtain ⟨hq, rfl⟩ := withQuorum_eq_ok.mp h
    rw [requorum_schedule]
    exact .removeMember hrole hr ⟨hq.majority, hq.role⟩
  | setQuorum caller quorum =>
    refine answered_reform .withQuorum fun e₁ h => ?_
    obtain ⟨hq, rfl⟩ := withQuorum_eq_ok.mp h
    rw [requorum_schedule]
    exact .setQuorum hq
  | disableConsensus caller =>
    refine answered_reform .withQuorum fun e₁ h => ?_
    obtain ⟨hq, rfl⟩ := withQuorum_eq_ok.mp h
    rw [requorum_schedule]
    exact .disableConsensus hq
  | submitReport sender vote version => exact answered_submitReport sender vote version
  | setReportProcessor caller p => cases hc

/-- What is left of a call after it is answered is to see how the settlement ends. -/
theorem Answered.performed {r : Reply (Error ε) (Engine π) (Option π)} (h : e.Answered now c r) :
    e.Performed now c r := by
  cases h with
  | refused _ => exact .refused _
  | amended hamends => exact .amended hamends
  | @settles e₁ hamends =>
    have hs := e₁.settled now
    cases hr : e₁.settle now with
    | mk result e₂ =>
      rw [hr] at hs
      cases result with
      | error err => exact .undone hamends hs
      | ok u => exact .settled hamends hs

theorem performed_setReportProcessor (caller : Address) (p : π) :
    e.Performed now (.setReportProcessor caller p)
      (e.perform now (.setReportProcessor caller p)) := by
  rw [perform, setReportProcessor]
  cases h : e.demand (ε := ε) .manageReportProcessor caller with
  | error err => exact .refused err
  | ok u =>
    dsimp only
    by_cases hzero : (ReportProcessor.address p).isZero = true
    · rw [if_pos hzero]
      exact .refused _
    rw [if_neg hzero]
    by_cases hsame : ReportProcessor.address p = ReportProcessor.address e.processor
    · rw [if_pos hsame]
      exact .refused _
    rw [if_neg hsame]
    cases hp : e.handOver (ε := ε) now p with
    | mk result p' =>
      cases result with
      | error err => exact .refused err
      | ok u =>
        exact .replaced (demand_eq_ok.mp h) (fun h => hzero (Octets.isZero_iff.mpr h)) hsame hp

/-- A call ends in one of the ways listed. -/
theorem performed (e : Engine π) (now : Word) (c : Command π) :
    e.Performed now c (e.perform now c) := by
  cases c with
  | setReportProcessor caller p => exact performed_setReportProcessor caller p
  | _ => exact (e.answered now rfl).performed

end Complete

end ReportQuorum.Engine
