import ReportQuorum.Proofs.Activation
import ReportQuorum.Proofs.NewNodes
import ReportQuorum.Proofs.RepeatedReplanning

/-!
# Engines whose initial epoch nobody has set

A new engine takes the last epoch of all for its initial one, and without a call that sets another
this stays so: a change of the layout needs a current frame, and when there is one, its first epoch
is the last epoch of all. Until then the engine does nothing: there is no frame, nobody votes, and
the administrator may set the initial epoch. But the last epoch of all is an epoch like any other.
When it comes frames begin, and it is too late for another initial epoch. How soon that is depends
on the grid: if one epoch is longer than all of time, it is there from the beginning.

## Main definitions

* `Engine.Inert`: what an engine does that waits for its initial epoch
* `Engine.StartsLast`: the initial epoch is the last one
* `Engine.Unvoted`: no vote is on record

## Main results

* `Engine.inert_iff`: an engine is inert exactly as long as frames have not begun
* `Engine.startsLast_after`, `Engine.unvoted_after`: what a run keeps
* `Engine.inert_iff_before_last_epoch`: until when an engine is inert whose initial epoch is not set
* `Engine.started_without_initial_epoch`: frames begin without it
-/

namespace ReportQuorum

namespace TimeGrid

/-- No moment belongs to an epoch after the last one. -/
theorem epochAt_le_farFutureEpoch (g : TimeGrid) (t : Word) : g.epochAt t ≤ g.farFutureEpoch :=
  epochAt_mono (Word.le_last t)

end TimeGrid

namespace Schedule

variable {s : Schedule} {t : Word}

theorem isActive_eq_false_iff :
    s.isActive t = false ↔ s.grid.epochAt t < s.layout.initialEpoch := by
  rw [isActive, decide_eq_false_iff_not, UInt64.not_le]

/-- Before frames have begun there is none. -/
theorem frameIndexAt_of_inactive (h : s.isActive t = false) :
    s.frameIndexAt t = .error .notStarted := by
  rw [frameIndexAt, if_pos (isActive_eq_false_iff.mp h)]

theorem frameAt_of_inactive (h : s.isActive t = false) : s.frameAt t = .error .notStarted := by
  rw [frameAt, frameIndexAt_of_inactive h]
  rfl

/-- The frame that begins with the epoch of a moment is the first one. -/
theorem frameAt_of_epochAt_eq (h : s.grid.epochAt t = s.layout.initialEpoch) :
    s.frameAt t = .ok s.initialFrame := by
  refine frameAt_eq_ok.mpr ⟨?_, ?_⟩
  · simp [isActive, h]
  · rw [h, UInt64.sub_self, UInt64.zero_div, initialFrame]

end Schedule

namespace Engine

variable {π ε : Type} [ReportProcessor π ε] {e e₀ e₁ : Engine π} {now : Word} {c : Command π}
  {g : TimeGrid}

/-! ### Before frames begin -/

/-- An engine that waits for its initial epoch. There is no frame to tell about or to change the
lengths of, and every vote is refused; but the administrator may set every initial epoch but zero
whose first reference slot the processor has not passed. -/
structure Inert (e : Engine π) (now : Word) : Prop where
  currentFrame : e.currentFrame now = .error .notStarted
  status : e.status now = .error .notStarted
  variants : e.variants now = .error .notStarted
  setFrameConfig : ∀ caller epochs slots, e.roles.holds .manageFrameConfig caller = true →
    Schedule.checkLengths e.schedule.grid epochs slots = .ok () →
    e.setFrameConfig (ε := ε) now caller epochs slots = ⟨.error (.schedule .notStarted), e⟩
  submitReport : ∀ sender vote version, ∃ err,
    e.submitReport (ε := ε) now sender vote version = ⟨.error err, e⟩
  updateInitialEpoch : ∀ caller epoch, e.roles.holds .defaultAdmin caller = true → epoch ≠ 0 →
    ReportProcessor.processingSlot e.processor ≤
      (e.startingAt epoch).schedule.initialFrame.refSlot →
    e.updateInitialEpoch (ε := ε) now caller epoch = ⟨.ok (), e.startingAt epoch⟩

/-- Nobody votes before frames have begun. -/
theorem judge_of_inactive (h : e.schedule.isActive now = false) (sender : Address) (vote : Vote)
    (version : Word) : ∃ err, e.judge (ε := ε) now sender vote version = .error err := by
  rw [judge, Schedule.frameAt_of_inactive h]
  cases e.roster.indexOf? sender with
  | none => exact ⟨_, rfl⟩
  | some i => exact ⟨_, rfl⟩

/-- An engine is inert exactly as long as frames have not begun. -/
theorem inert_iff : e.Inert (ε := ε) now ↔ e.schedule.isActive now = false := by
  constructor
  · intro h
    rw [← Bool.not_eq_true]
    intro hactive
    obtain ⟨f, hf⟩ := Schedule.exists_frameAt hactive
    cases hf.symm.trans h.currentFrame
  · intro h
    have hframe := Schedule.frameAt_of_inactive h
    constructor
    case currentFrame => exact hframe
    case status => rw [status, currentFrame, hframe]; rfl
    case variants => rw [variants, currentFrame, hframe]; rfl
    case setFrameConfig =>
      intro caller epochs slots hrole hlengths
      have hdemand : e.demand (ε := ε) .manageFrameConfig caller = .ok () := demand_eq_ok.mpr hrole
      rw [Engine.setFrameConfig, hdemand, Schedule.reconfigure, hlengths,
        Schedule.frameIndexAt_of_inactive h]
      rfl
    case submitReport =>
      intro sender vote version
      obtain ⟨err, hjudge⟩ := judge_of_inactive (ε := ε) h sender vote version
      exact ⟨err, submitReport_of_judge_error hjudge⟩
    case updateInitialEpoch =>
      intro caller epoch hrole hepoch hpassed
      exact updateInitialEpoch_eq_ok.mpr ⟨hrole, hepoch, h, hpassed, rfl⟩

/-! ### The initial epoch stays the last one -/

/-- The initial epoch of an engine on a grid is the last one. -/
structure StartsLast (e : Engine π) (g : TimeGrid) : Prop where
  grid : e.schedule.grid = g
  initialEpoch : e.schedule.layout.initialEpoch = g.farFutureEpoch

/-- Whether a call sets the initial epoch. -/
def Command.setsInitialEpoch : Command π → Bool
  | .updateInitialEpoch _ _ => true
  | _ => false

omit [ReportProcessor π ε] in
/-- Then frames have not begun before the last epoch. -/
theorem StartsLast.isActive_eq_false_iff (h : e.StartsLast g) :
    e.schedule.isActive now = false ↔ g.epochAt now < g.farFutureEpoch := by
  rw [Schedule.isActive_eq_false_iff, h.grid, h.initialEpoch]

/-- That is so in a new engine. -/
theorem startsLast_of_create {setup : Setup} {p : π} (h : create setup p = .ok e) :
    e.StartsLast setup.grid := by
  have hschedule := (Schedule.dormant_eq_ok.mp (created_of_create h).schedule).2.2
  exact ⟨by rw [← hschedule], by rw [← hschedule]⟩

/-- A change of the layout is made in the last epoch, if at all, and keeps it the initial one. -/
theorem StartsLast.amends {settles : Bool} (h : e.StartsLast g) (hc : e.Amends now c e₁ settles)
    (hsets : c.setsInitialEpoch = false) : e₁.StartsLast g := by
  refine ⟨hc.keeps.grid.trans h.grid, ?_⟩
  cases hc with
  | updateInitialEpoch _ _ _ => cases hsets
  | setFrameConfig _ hs =>
    obtain ⟨hactive, -, hinitial⟩ := Schedule.reconfigure_eq_ok hs
    have hstart := Schedule.startAt_le hactive
    have hlast := UInt64.le_iff_toNat_le.mp (g.epochAt_le_farFutureEpoch now)
    rw [emitIf_schedule, emitIf_schedule, ← UInt64.toNat_inj, hinitial]
    -- The new initial epoch is not before the old one, nor after the epoch of the moment.
    refine Nat.le_antisymm ?_ ?_
    · rw [← h.grid] at hlast ⊢
      exact Nat.le_trans hstart hlast
    · rw [Schedule.startAt, h.initialEpoch]
      exact Nat.le_add_right _ _
  | setFastLane _ hs =>
    obtain rfl := Schedule.setFastLane_eq_ok hs
    rw [emitIf_schedule]
    exact h.initialEpoch
  | submitReport _ => exact h.initialEpoch
  | _ => simpa [emit] using h.initialEpoch

theorem StartsLast.performed {r : Reply (Error ε) (Engine π) (Option π)} (h : e.StartsLast g)
    (hr : e.Performed now c r) (hsets : r.result.isOk = true → c.setsInitialEpoch = false) :
    r.state.StartsLast g := by
  cases hr with
  | refused _ => exact h
  | amended hamends => exact h.amends hamends (hsets rfl)
  | settled hamends hs =>
    have hmade := h.amends hamends (hsets rfl)
    have hkept := hs.sameVotes.schedule
    exact ⟨hkept ▸ hmade.grid, hkept ▸ hmade.initialEpoch⟩
  | undone _ _ => exact ⟨h.grid, h.initialEpoch⟩
  | replaced _ _ _ _ => exact ⟨h.grid, h.initialEpoch⟩

theorem StartsLast.act (h : e.StartsLast g) {a : Act π}
    (ha : ∀ c ∈ e.acceptedIn now a, c.setsInitialEpoch = false) : (e.act now a).StartsLast g := by
  cases a with
  | tend f => exact ⟨h.grid, h.initialEpoch⟩
  | drain => exact ⟨h.grid, h.initialEpoch⟩
  | call c =>
    refine h.performed (e.performed now c) fun haccepted => ha c ?_
    rw [acceptedIn, accepts, if_pos haccepted]
    exact List.mem_singleton_self c

/-- Unless a call sets it, the initial epoch is the last one after every run. -/
theorem startsLast_after (h : e.StartsLast g) (run : List (Word × Act π))
    (hrun : ∀ c ∈ e.accepted run, c.setsInitialEpoch = false) : (e.after run).StartsLast g := by
  induction run generalizing e with
  | nil => exact h
  | cons x run ih =>
    obtain ⟨hfirst, hrest⟩ := List.forall_mem_append.mp hrun
    exact ih (h.act hfirst) hrest

/-! ### No vote is recorded -/

/-- No vote is on record, neither of a member nor for a report. -/
structure Unvoted (e : Engine π) : Prop where
  seats : ∀ seat ∈ e.roster.seats, seat.vote = Vote.blank
  tally : e.tally = {}

/-- Before frames have begun no accepted call leaves a vote, or has votes settled. -/
theorem Unvoted.amends {settles : Bool} (h : e.Unvoted) (hinactive : e.schedule.isActive now = false)
    (hc : e.Amends now c e₁ settles) : e₁.Unvoted ∧ settles = false := by
  cases hc with
  | addMember _ hr _ =>
    refine ⟨⟨fun seat hseat => ?_, by simpa [emit] using h.tally⟩, hinactive⟩
    rw [requorum_roster] at hseat
    obtain ⟨hold, -⟩ | rfl := Roster.mem_of_mem_insert hr hseat
    · exact h.seats seat hold
    · rfl
  | removeMember _ hr _ =>
    refine ⟨⟨fun seat hseat => ?_, by simpa [emit] using h.tally⟩, hinactive⟩
    rw [requorum_roster] at hseat
    exact h.seats seat (Roster.mem_of_mem_remove hr hseat)
  | submitReport hjudge =>
    obtain ⟨err, hrefused⟩ := judge_of_inactive (ε := ε) hinactive _ _ _
    cases hrefused.symm.trans hjudge
  | setQuorum _ => exact ⟨⟨by simpa using h.seats, by simpa using h.tally⟩, hinactive⟩
  | disableConsensus _ => exact ⟨⟨by simpa using h.seats, by simpa using h.tally⟩, hinactive⟩
  | _ => exact ⟨⟨by simpa using h.seats, by simpa using h.tally⟩, rfl⟩

theorem Unvoted.act (h : e.Unvoted) (hinactive : e.schedule.isActive now = false) (a : Act π) :
    (e.act now a).Unvoted := by
  cases a with
  | tend f => exact ⟨h.seats, h.tally⟩
  | drain => exact ⟨h.seats, h.tally⟩
  | call c =>
    have hp := e.performed now c
    change (e.perform now c).state.Unvoted
    generalize e.perform now c = r at hp
    cases hp with
    | refused _ => exact h
    | amended hamends => exact (h.amends hinactive hamends).1
    | settled hamends _ => cases (h.amends hinactive hamends).2
    | undone hamends _ => cases (h.amends hinactive hamends).2
    | replaced _ _ _ _ => exact ⟨h.seats, h.tally⟩

/-- No vote is recorded before the last epoch. -/
theorem unvoted_after (h : e.Unvoted) (hlast : e.StartsLast g) (run : List (Word × Act π))
    (hrun : ∀ c ∈ e.accepted run, c.setsInitialEpoch = false)
    (hbefore : ∀ x ∈ run, g.epochAt x.1 < g.farFutureEpoch) : (e.after run).Unvoted := by
  induction run generalizing e with
  | nil => exact h
  | cons x run ih =>
    obtain ⟨hfirst, hrest⟩ := List.forall_mem_append.mp hrun
    obtain ⟨htime, htimes⟩ := List.forall_mem_cons.mp hbefore
    exact ih (h.act (hlast.isActive_eq_false_iff.mpr htime) x.2) (hlast.act hfirst) hrest htimes

/-! ### Engines without an initial epoch -/

/-- After every run of a new engine in which no call sets the initial epoch, whatever is accepted or
refused and whatever its processor does meanwhile: the engine is inert at a moment exactly if the
last epoch has not come at it, and no vote is on record if no act of the run was in the last epoch.
In the last epoch frames have begun with the first one, and every call that would set the initial
epoch is refused. -/
theorem inert_iff_before_last_epoch {setup : Setup} {p : π} (h : create setup p = .ok e₀)
    (run : List (Word × Act π)) (hrun : ∀ c ∈ e₀.accepted run, c.setsInitialEpoch = false) :
    let g := setup.grid
    let e := e₀.after run
    (∀ now, e.Inert (ε := ε) now ↔ g.epochAt now < g.farFutureEpoch) ∧
    ((∀ x ∈ run, g.epochAt x.1 < g.farFutureEpoch) → e.Unvoted) ∧
    ∀ now, g.epochAt now = g.farFutureEpoch →
      e.currentFrame now = .ok e.schedule.initialFrame ∧
        ∀ caller epoch, ∃ err, e.updateInitialEpoch (ε := ε) now caller epoch = ⟨.error err, e⟩ := by
  intro g e
  have hmade := created_of_create h
  have hnew : e₀.StartsLast g := startsLast_of_create h
  have hunvoted : e₀.Unvoted := ⟨by simp [hmade.roster], hmade.tally⟩
  have hlast : e.StartsLast g := startsLast_after hnew run hrun
  refine ⟨fun now => inert_iff.trans hlast.isActive_eq_false_iff,
    unvoted_after hunvoted hnew run hrun, fun now hnow => ⟨?_, ?_⟩⟩
  · refine Schedule.frameAt_of_epochAt_eq ?_
    rw [hlast.grid, hlast.initialEpoch, hnow]
  · refine updateInitialEpoch_refused ?_
    rw [← Bool.not_eq_false, hlast.isActive_eq_false_iff, hnow]
    exact UInt64.lt_irrefl _

/-- An administrator has granted itself roles and seated two members, but its calls for an initial
epoch were refused, as it asked for epoch zero. The engine is inert in the second epoch, and the
administrator may still begin with the third. In the last epoch of all it is not inert. -/
theorem inert_after_refused_calls :
    let admin : Address := .ofLowByte 9
    let member (i : UInt8) : Address := .ofLowByte i
    let g : TimeGrid := ⟨32, 12, 100⟩
    let recorder : Recorder := { address := .ofLowByte 7, version := 1, processingSlot := 95 }
    let run : List (Word × Act Recorder) :=
      [(484, .call (.grantRole admin .manageMembersAndQuorum admin)),
        (484, .call (.grantRole admin .manageFrameConfig admin)),
        (484, .call (.addMember admin (member 1) 1)), (484, .drain),
        (484, .call (.addMember admin (member 2) 2)),
        (484, .call (.updateInitialEpoch admin 0)), (484, .call (.setFrameConfig admin 2 0)),
        (496, .call (.submitReport (member 1) ⟨31, .replicate 32 1⟩ 1))]
    ∃ e₀, create ⟨.ofLowByte 8, g, 1, 0, admin⟩ recorder = .ok e₀ ∧
      let e := e₀.after run
      (e₀.accepted run).length = 4 ∧ (∀ c ∈ e₀.accepted run, c.setsInitialEpoch = false) ∧
      e.roster.members = [member 1, member 2] ∧ e.Unvoted ∧ e.Inert 496 ∧
      e.updateInitialEpoch 496 admin 3 = ⟨.ok (), e.startingAt 3⟩ ∧
      ¬ e.Inert Word.last := by
  intro admin member g recorder run
  have hrun : (create ⟨.ofLowByte 8, g, 1, 0, admin⟩ recorder).toOption.any (fun e₀ => decide (
      (e₀.accepted run).length = 4 ∧ (∀ c ∈ e₀.accepted run, c.setsInitialEpoch = false) ∧
        (e₀.after run).roster.members = [member 1, member 2] ∧
        (e₀.after run).roles.holds .defaultAdmin admin = true ∧
        ReportProcessor.processingSlot (e₀.after run).processor ≤
          ((e₀.after run).startingAt 3).schedule.initialFrame.refSlot)) = true := by
    decide +kernel
  obtain ⟨e₀, hmade, hlength, hsets, hmembers, hadmin, hpassed⟩ := exists_of_any hrun
  obtain ⟨hinert, hunvoted, -⟩ := inert_iff_before_last_epoch hmade run hsets
  have hnow : (e₀.after run).Inert 496 := (hinert 496).mpr (by decide +kernel)
  refine ⟨e₀, hmade, hlength, hsets, hmembers, hunvoted (by decide +kernel), hnow,
    hnow.updateInitialEpoch admin 3 hadmin (by decide) hpassed, ?_⟩
  rw [hinert]
  decide +kernel

/-- On a grid with one epoch for all of time a new engine has a frame at once, and its administrator
cannot set an initial epoch. On a finer grid a vote is recorded in the last epoch. -/
theorem started_without_initial_epoch :
    let admin : Address := .ofLowByte 9
    let recorder : Recorder := { address := .ofLowByte 7, version := 1, processingSlot := 0 }
    let run : List (Word × Act Recorder) :=
      [(Word.last, .call (.grantRole admin .manageMembersAndQuorum admin)),
        (Word.last, .call (.addMember admin (.ofLowByte 1) 1)),
        (Word.last, .call (.submitReport (.ofLowByte 1)
          ⟨1537228672809129279, .replicate 32 1⟩ 1))]
    (∃ e₀, create ⟨.ofLowByte 8, ⟨4294967296, 4294967296, 0⟩, 1, 0, admin⟩ recorder = .ok e₀ ∧
      e₀.currentFrame 0 = .ok ⟨0, 0, 4294967295⟩ ∧
      ∀ epoch, ∃ err, e₀.updateInitialEpoch 0 admin epoch = ⟨.error err, e₀⟩) ∧
    ∃ e₀, create ⟨.ofLowByte 8, ⟨32, 12, 100⟩, 1, 0, admin⟩ recorder = .ok e₀ ∧
      (e₀.accepted run).length = 3 ∧ (∀ c ∈ e₀.accepted run, c.setsInitialEpoch = false) ∧
      (e₀.after run).roster.vote? (.ofLowByte 1) =
        some ⟨1537228672809129279, .replicate 32 1⟩ := by
  intro admin recorder run
  have hcoarse : (create ⟨.ofLowByte 8, ⟨4294967296, 4294967296, 0⟩, 1, 0, admin⟩
      recorder).toOption.any (fun e₀ => decide (
        (e₀.currentFrame 0).toOption = some ⟨0, 0, 4294967295⟩)) = true := by
    decide +kernel
  have hfine : (create ⟨.ofLowByte 8, ⟨32, 12, 100⟩, 1, 0, admin⟩ recorder).toOption.any
      (fun e₀ => decide ((e₀.accepted run).length = 3 ∧
        (∀ c ∈ e₀.accepted run, c.setsInitialEpoch = false) ∧
        (e₀.after run).roster.vote? (.ofLowByte 1) =
          some ⟨1537228672809129279, .replicate 32 1⟩)) = true := by
    decide +kernel
  obtain ⟨e₀, hmade, hf⟩ := exists_of_any hcoarse
  rw [toOption_eq_some] at hf
  have hactive := (Schedule.frameAt_eq_ok.mp hf).1
  exact ⟨⟨e₀, hmade, hf, updateInitialEpoch_refused hactive admin⟩, exists_of_any hfine⟩

end Engine

end ReportQuorum
