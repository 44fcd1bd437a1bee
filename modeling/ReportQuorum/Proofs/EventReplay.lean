import ReportQuorum.Proofs.EngineReplay
import ReportQuorum.Proofs.Rollback
import ReportQuorum.Proofs.SlotAccounts

/-!
# Events tell everything

An oracle, like an engine, tells of all that it does: whoever has fetched all its events since it
was made knows to which engine it is bound, its version, who holds which role, the report that it
holds and the slot that it has marked. A report that is handed over twice is told twice, and a slot
that is passed over is told besides, so not every event of an oracle changes what is known.

## Main definitions

* `Oracle.Picture`: what is known of an oracle from its events
* `Oracle.Picture.next`, `Oracle.Picture.replay`: what is known after one more event and after many
* `Oracle.picture`: the picture that an oracle should give

## Main results

* `Oracle.Altered.shows`: what a call changes is told
* `replay_eq_state`: the events of engines and oracles in every run tell their state
-/

namespace ReportQuorum

namespace Oracle

/-- What is known of an oracle from its events. -/
structure Picture where
  engine : Address := Octets.zero
  version : Word := 0
  roles : RoleTable
  report : Report
  processingSlot : Word
deriving DecidableEq

namespace Picture

/-- What is known before anything has been told: the first administrator and the slot marked. -/
def start (admin : Address) (processingSlot : Word) : Picture where
  roles := .ofAdmin admin
  report := ⟨Octets.zero, processingSlot, 0⟩
  processingSlot

/-- What is known after one more event. -/
def next (v : Picture) : Event → Picture
  | .consensusContractSet engine _ => { v with engine }
  | .consensusVersionSet version _ => { v with version }
  | .reportSubmitted refSlot report deadline => { v with report := ⟨report, refSlot, deadline⟩ }
  | .reportDiscarded _ _ => { v with report := { v.report with report := Octets.zero } }
  | .processingStarted refSlot _ => { v with processingSlot := refSlot }
  | .processingMissed _ => v
  | .roleGranted role account _ => { v with roles := v.roles.insert role account }
  | .roleRevoked role account _ => { v with roles := v.roles.erase role account }

/-- What is known after events. -/
def replay (v : Picture) (events : List Event) : Picture := events.foldl next v

variable {v : Picture}

theorem replay_append (v : Picture) (events events' : List Event) :
    v.replay (events ++ events') = (v.replay events).replay events' :=
  List.foldl_append

/-- Events keep the table of roles in order. -/
theorem ordered_replay (h : v.roles.Ordered) (events : List Event) :
    (v.replay events).roles.Ordered := by
  induction events generalizing v with
  | nil => exact h
  | cons event events ih =>
    refine ih ?_
    cases event with
    | roleGranted role account _ => exact h.insert role account
    | roleRevoked role account _ => exact h.erase role account
    | _ => exact h

end Picture

variable {η φ : Type} {o o' : Oracle η} {now : Word} {c : Command}

/-- The picture that an oracle should give. -/
def picture (o : Oracle η) : Picture where
  engine := o.engine
  version := o.version
  roles := o.roles
  report := o.report
  processingSlot := o.processingSlot

/-- What a call changes is told. -/
theorem Altered.shows (h : o.Altered now c o') (hroles : o.roles.Ordered) :
    ∃ events, o'.events = o.events ++ events ∧ o.picture.replay events = o'.picture := by
  cases h with
  | unmoved _ => exact ⟨[], (List.append_nil _).symm, rfl⟩
  | @taken _ report refSlot deadline _ =>
    refine ⟨_, taking_events, ?_⟩
    -- A slot that is passed over is told first, which changes nothing.
    have hpassed : o.picture.replay (o.passedOver refSlot) = o.picture := by
      rw [passedOver]
      split <;> rfl
    rw [Picture.replay_append, hpassed, taking, emitIf]
    split <;> rfl
  | withdrawn _ _ _ => exact ⟨[_], rfl, rfl⟩
  | started _ _ => exact ⟨[_], rfl, rfl⟩
  | rebound => exact ⟨[_], rfl, rfl⟩
  | reversioned => exact ⟨[_], rfl, rfl⟩
  | @granted _ role account =>
    -- A grant is told unless the account holds the role, and then the table stays as it is.
    cases hheld : o.roles.holds role account with
    | false => exact ⟨[_], rfl, rfl⟩
    | true =>
      rw [(RoleTable.insert_eq_self_iff hroles).mpr hheld]
      exact ⟨[], (List.append_nil _).symm, rfl⟩
  | @revoked _ role account =>
    cases hheld : o.roles.holds role account with
    | false =>
      rw [RoleTable.erase_eq_self_iff.mpr hheld]
      exact ⟨[], (List.append_nil _).symm, rfl⟩
    | true => exact ⟨[_], rfl, rfl⟩

/-- What a new oracle tells is what it is. -/
theorem replay_create {setup : Setup} {handler : η}
    (h : create (φ := φ) setup handler = .ok o) :
    (Picture.start setup.admin setup.processingSlot).replay o.events = o.picture := by
  rw [create, refusal_eq_ok (by simp)] at h
  obtain ⟨-, h⟩ := h
  split at h
  · cases h
  · cases h
    rfl

variable [ReportHandler η φ]

/-- An act loses nothing told before, and what it changes is told. -/
theorem shows_act (hroles : o.roles.Ordered) (now : Word) (a : Act η) :
    ∃ events, o.fetchedIn a ++ (o.act now a).events = o.events ++ events ∧
      o.picture.replay events = (o.act now a).picture := by
  cases a with
  | call c => exact (o.altered now c).shows hroles
  | tend f => exact ⟨[], (List.append_nil _).symm, rfl⟩
  | drain => exact ⟨[], rfl, rfl⟩

/-- What is told in a run tells the state at its end, together with what was told before it. -/
theorem replay_log {start : Picture} {past : List Event}
    (h : start.replay (past ++ o.events) = o.picture) (hstart : start.roles.Ordered)
    (run : List (Word × Act η)) : start.replay (past ++ o.log run) = (o.after run).picture := by
  induction run generalizing o past with
  | nil => exact h
  | cons x run ih =>
    obtain ⟨now, a⟩ := x
    have hroles : o.picture.roles.Ordered := h ▸ Picture.ordered_replay hstart _
    obtain ⟨events, hevents, hreplay⟩ := shows_act hroles now a
    rw [log, ← List.append_assoc]
    refine ih ?_
    rw [List.append_assoc, hevents, ← List.append_assoc, Picture.replay_append, h, hreplay]

end Oracle

/-! ### Engines and oracles -/

/-- In every run of a new engine over any processor, with any calls at any moments, accepted or
refused, whatever happens to its processor meanwhile and whenever its events are fetched: going
through all events told so far, fetched or not, gives the roster in its order with the last vote of
each member, the quorum, the layout of frames, the table of roles and the tally that the engine has,
and the address under which its processor was bound; which is the address of its processor, unless
that takes another one on its own. Each of the events was news.

In every run of a new oracle, whatever its handler does and refuses, its events give the engine that
it is bound to, its version, its table of roles, the report that it holds and the slot that it has
marked. -/
theorem replay_eq_state {π ε η φ : Type} [ReportProcessor π ε] [ReportHandler η φ] :
    (∀ {setup : Engine.Setup} {p : π} {e₀ : Engine π}, Engine.create setup p = .ok e₀ →
      ∀ run : List (Word × Engine.Act π),
        let first := Engine.Picture.start setup.admin
        let e := e₀.after run
        first.replay (e₀.log run) = e.picture (e₀.boundAs (ReportProcessor.address p) run) ∧
          (ReportProcessor.FixedAddress π → e₀.Throughout Engine.KeepsAddress run →
            first.replay (e₀.log run) = e.picture (ReportProcessor.address e.processor)) ∧
          ∀ before event rest, e₀.log run = before ++ event :: rest →
            (first.replay before).News event) ∧
    ∀ {setup : Oracle.Setup} {handler : η} {o₀ : Oracle η},
      Oracle.create (φ := φ) setup handler = .ok o₀ → ∀ run : List (Word × Oracle.Act η),
        (Oracle.Picture.start setup.admin setup.processingSlot).replay (o₀.log run) =
          (o₀.after run).picture := by
  refine ⟨fun {setup p e₀} h run => ?_, fun {setup handler o₀} h run => ?_⟩
  · intro first e
    have hleads : first.Leads ([] ++ e₀.log run)
        (e.picture (e₀.boundAs (ReportProcessor.address p) run)) :=
      Engine.leads_log (Engine.leads_create h) (RoleTable.ordered_ofAdmin _) run
    rw [List.nil_append] at hleads
    -- A new engine has bound its processor under the address that this has.
    refine ⟨hleads.replay_eq, fun hfixed hkeeps => ?_, fun before event rest hlog => ?_⟩
    · rw [hleads.replay_eq, ← (Engine.created_of_create h).processor,
        Engine.boundAs_eq hfixed hkeeps]
    · rw [hlog] at hleads
      exact hleads.news
  · have htold : (Oracle.Picture.start setup.admin setup.processingSlot).replay ([] ++ o₀.log run) =
        (o₀.after run).picture :=
      Oracle.replay_log (Oracle.replay_create h) (RoleTable.ordered_ofAdmin _) run
    exact htold

namespace Engine.Recorded

/-- Another recorder. -/
def second : Recorder := { address := .ofLowByte 6, version := 1, processingSlot := 0 }

/-- A member is removed in vain, then the events are fetched. The other member agrees with the
first, and a greater quorum ends the agreement. A role is granted twice, and the recorder is
replaced. -/
def eventful : List (Word × Act Recorder) :=
  halfVoted ++ [(484, .call leave), (490, .drain), (490, .tend ({ · with rejectsSubmit := false })),
    (490, .call (.submitReport (.ofLowByte 2) ⟨31, reportOf 1⟩ 1)),
    (490, .call (.setQuorum admin 3)),
    (490, .call (.grantRole admin .manageReportProcessor admin)),
    (490, .call (.grantRole admin .manageReportProcessor admin)),
    (490, .call (.setReportProcessor admin second))]

end Engine.Recorded

open Engine.Recorded Oracle.Guarded in
/-- Of the fifteen events of the one run, six have not been fetched; the refused removal and the
second grant are not among them. In the other run the first report has been processed. -/
theorem replay_of_eventful_runs :
    ReportProcessor.FixedAddress Recorder ∧
    (∃ e₀, Engine.create Engine.Recorded.setup recorder = .ok e₀ ∧
      e₀.Throughout Engine.KeepsAddress eventful ∧
      let told := (Engine.Picture.start admin).replay (e₀.log eventful)
      told = (e₀.after eventful).picture (.ofLowByte 6) ∧
        told.quorum = 3 ∧ told.roster.size = 2 ∧ told.tally.agreed = none ∧
        (e₀.log eventful).length = 15 ∧ (e₀.after eventful).events.length = 6) ∧
    ∃ o₀, Oracle.create (φ := GuardedLog.Refusal) Oracle.Guarded.setup ({} : GuardedLog) = .ok o₀ ∧
      let told := (Oracle.Picture.start (.ofLowByte 9) 7).replay (o₀.log beforeStart)
      told = (o₀.after beforeStart).picture ∧ told.processingSlot = 31 := by
  obtain ⟨hengines, horacles⟩ :=
    @replay_eq_state Recorder Recorder.Refusal GuardedLog GuardedLog.Refusal _ _
  have hrun : (Engine.create Engine.Recorded.setup recorder).toOption.any (fun e₀ =>
      let e := e₀.after eventful
      decide (ReportProcessor.address e.processor = .ofLowByte 6 ∧ e.quorum = 3 ∧
        e.roster.size = 2 ∧ e.tally.agreed = none ∧ (e₀.log eventful).length = 15 ∧
        e.events.length = 6)) = true := by
    decide +kernel
  have hrun' : (Oracle.create (φ := GuardedLog.Refusal) Oracle.Guarded.setup
      ({} : GuardedLog)).toOption.any
        (fun o₀ => decide ((o₀.after beforeStart).processingSlot = 31)) = true := by
    decide +kernel
  refine ⟨Recorder.fixedAddress, ?_, ?_⟩
  · obtain ⟨e₀, hmade, haddress, hquorum, hsize, hagreed, hlength, hpending⟩ := exists_of_any hrun
    -- Whatever happens to the recorder, its address stays.
    have hkeeps : e₀.Throughout Engine.KeepsAddress eventful :=
      ⟨trivial, trivial, trivial, trivial, trivial, rfl, trivial, trivial, rfl, trivial, trivial,
        trivial, trivial, trivial, trivial⟩
    obtain ⟨-, htold, -⟩ := hengines hmade eventful
    have hpicture := htold Recorder.fixedAddress hkeeps
    rw [haddress] at hpicture
    change (Engine.Picture.start admin).replay (e₀.log eventful) = _ at hpicture
    refine ⟨e₀, hmade, hkeeps, hpicture, ?_⟩
    rw [hpicture]
    exact ⟨hquorum, hsize, hagreed, hlength, hpending⟩
  · obtain ⟨o₀, hmade, hmarked⟩ := exists_of_any hrun'
    have hpicture := horacles hmade beforeStart
    refine ⟨o₀, hmade, hpicture, ?_⟩
    exact (congrArg Oracle.Picture.processingSlot hpicture).trans hmarked

end ReportQuorum
