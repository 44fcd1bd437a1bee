import ReportQuorum.Proofs.HeldMajority
import ReportQuorum.Proofs.Rejections

/-!
# What an oracle takes from its engine

An oracle takes a report from its engine only: one that comes in time, for a slot that it has not
started to process, and that is not before the slot of its last report. What it holds it gives back
on similar terms. The engine looks at its own notes instead: at the current frame, its deadline
slot, and the votes. On a clock that does not go back these notes imply all that the oracle asks
for, so whatever the engine makes of the votes, the oracle goes along with it.

## Main definitions

* `Engine.Abreast`: the votes are not for an earlier slot than the report that was handed over last

## Main results

* `Engine.Settled.accepted`: a settlement fails only where there is no current frame
* `Engine.perform_accepted`: no call is refused by the oracle
* `Simulation.never_refused_by_oracle`: nor is any step of a play
-/

namespace ReportQuorum

open ReportHandler (Willing willing_reportLog)

namespace Engine

variable {η φ : Type} [ReportHandler η φ] {e e₁ : Engine (Oracle η)} {now : Word}
  {c : Command (Oracle η)}

/-- The votes are for the slot of the report that was handed over last, or for a later one. -/
def Abreast (e : Engine (Oracle η)) : Prop := e.processor.report.refSlot ≤ e.tally.refSlot

omit [ReportHandler η φ] in
theorem Abreast.congr (h : e.Abreast)
    (hreport : e₁.processor.report.refSlot = e.processor.report.refSlot)
    (htally : e₁.tally.refSlot = e.tally.refSlot) : e₁.Abreast := by
  rw [Abreast, hreport, htally]
  exact h

/-! ### Settling the votes -/

/-- A settlement hands over reports for the slot of the votes only. -/
theorem Settled.abreast {r : Reply (Error (Oracle.Error φ)) (Engine (Oracle η)) Unit}
    (hs : e.Settled now r) (h : e.Abreast) : r.state.Abreast := by
  cases hs with
  | reached _ winner _ _ hq =>
    obtain ⟨-, rfl⟩ := Oracle.submit_eq_ok.mp hq
    refine UInt64.le_of_eq ?_
    exact (congrArg _ Oracle.taking_report).trans (refSlot_of_winner winner).symm
  | withdrawalRefused _ _ hp => exact h.congr (Oracle.served_discard hp).refSlot_eq rfl
  | lost _ _ _ hp => exact h.congr (Oracle.served_discard hp).refSlot_eq rfl
  | handoverRefused _ _ _ hp hq =>
    obtain rfl := Oracle.submit_refused hq
    exact h.congr hp.served.refSlot_eq rfl
  | _ => exact h

omit [ReportHandler η φ] in
/-- The slot of a report that wins is the slot of the votes. -/
theorem Abreast.room (h : e.Abreast) {refSlot : Word} {v : Variant}
    (winner : e.winnerFor refSlot = some v) : e.processor.report.refSlot ≤ refSlot :=
  refSlot_of_winner winner ▸ h

/-- If the oracle holds what its engine has noted, and nothing for a later slot than a report that
wins, it refuses nothing that the engine makes of the votes. -/
theorem Settled.accepted {r : Reply (Error (Oracle.Error φ)) (Engine (Oracle η)) Unit}
    (hs : e.Settled now r) (hwilling : Willing η) (h : e.Mirrored)
    (hroom : ∀ {refSlot v}, e.winnerFor refSlot = some v → e.processor.report.refSlot ≤ refSlot) :
    r.result = .ok () ∨
      ∃ cause, e.schedule.frameAt now = .error cause ∧ r.result = .error (.schedule cause) := by
  cases hs with
  | notStarted hf => exact .inr ⟨_, hf, rfl⟩
  | @withdrawalRefused f d _ _ hopen held hp =>
    -- What the oracle holds is for the current slot, which it has not started to process.
    obtain ⟨hslot, -⟩ := Oracle.held_eq_some.mp (h.held_of_agreedFor held)
    have hmark : ¬ f.refSlot ≤ e.processor.processingSlot := of_decide_eq_false hopen.unlocked
    exact absurd hp (Oracle.discard_ne_error hwilling h.bound.symm (UInt64.le_of_eq hslot)
      (UInt64.not_le.mp hmark))
  | @handoverRefused f v _ p _ hopen winner _ hp hq =>
    have haccepts : p.Accepts now e.address v.report f.refSlot (e.schedule.deadlineTime f) := by
      obtain ⟨-, -, -, ⟨-, rfl⟩ | ⟨hslot, -⟩⟩ := h.held_of_withdrawn hp
      · exact hopen.accepts h.bound h.grid rfl (hroom winner)
          (h.named _ (Tally.exists_of_winner winner).1)
      · exact h.accepts_of_withdrawn hopen winner hp hslot
    have hok := Oracle.submit_eq_ok (φ := φ) |>.mpr ⟨haccepts, rfl⟩
    exact absurd (hq.symm.trans hok) (by simp)
  | _ => exact .inl rfl

/-! ### Calls -/

theorem Amends.abreast {settles : Bool} (hc : e.Amends now c e₁ settles)
    (hlisted : e.Listed now) (h : e.Abreast) : e₁.Abreast := by
  rw [Abreast, hc.keeps.processor]
  exact UInt64.le_trans h (hc.refSlot_le hlisted)

theorem Abreast.perform (h : e.Abreast) (hlisted : e.Listed now) (hc : c.replaces = false) :
    (e.perform now c).state.Abreast := by
  have hr := e.performed now c
  generalize e.perform now c = r at hr
  cases hr with
  | refused _ => exact h
  | amended hamends => exact hamends.abreast hlisted h
  | settled hamends hs => exact hs.abreast (hamends.abreast hlisted h)
  | @undone c e₁ e₂ _ hamends hs =>
    -- A settlement that fails hands over nothing.
    have hslot := (hs.served.mono fun _ hserved => nomatch hserved.1).refSlot_eq
    rw [hamends.keeps.processor] at hslot
    exact h.congr hslot rfl
  | replaced _ _ _ _ => cases hc

/-- Whatever an engine makes of the votes after a change, its oracle goes along with it. -/
theorem carryOut_accepted (hwilling : Willing η) (h : e.Mirrored) (hlisted : e.Listed now)
    (habreast : e.Abreast) (hc : e.Amends now c e₁ true) {s : Settlement}
    (hs : e₁.settlement now = .ok (some s)) : (e₁.carryOut now s).result = .ok () := by
  have h₁ : e₁.Mirrored := h.of_keeps hc.keeps (hc.named h.named)
  have hsettled := e₁.settled now
  rw [settle, hs] at hsettled
  obtain hok | ⟨cause, hf, -⟩ := hsettled.accepted hwilling h₁ (hc.abreast hlisted habreast).room
  · exact hok
  · rw [settlement_of_error hf] at hs
    cases hs

/-- No call is refused by the oracle, unless it replaces the oracle. -/
theorem perform_accepted (hwilling : Willing η) (h : e.Mirrored) (hlisted : e.Listed now)
    (habreast : e.Abreast) (hc : c.replaces = false) (cause : Oracle.Error φ) :
    (e.perform now c).result ≠ .error (.processor cause) := by
  have hr := e.answered now hc
  generalize e.perform now c = r at hr
  cases hr with
  | refused hown =>
    rintro ⟨⟩
    cases hown
  | amended _ => exact nofun
  | @settles e₁ hamends =>
    have h₁ : e₁.Mirrored := h.of_keeps hamends.keeps (hamends.named h.named)
    have haccepted := (e₁.settled now).accepted hwilling h₁ (hamends.abreast hlisted habreast).room
    generalize e₁.settle now = settled at haccepted
    obtain ⟨result, e₂⟩ := settled
    obtain rfl | ⟨_, -, rfl⟩ := haccepted
    · exact nofun
    · exact nofun

end Engine

namespace Node

variable {c : Config} {now : Word} {n : Node}

/-- In a new node nothing has been handed over. -/
theorem abreast_of_create (h : create c now = .ok n) : n.engine.Abreast := by
  refine (invariant_of_create (I := fun e => e.Listed now ∧ e.Abreast) ?_ ?_ ?_ h).2
  · intro o e ho he
    have hcreated := Engine.created_of_create he
    refine ⟨hcreated.listed now, ?_⟩
    rw [Engine.Abreast, hcreated.processor, hcreated.tally, (Oracle.created_of_create ho).report]
    exact UInt64.le_refl _
  · exact fun e c hc _ ⟨hlisted, he⟩ =>
      ⟨hlisted.performed (e.performed now c), he.perform hlisted hc⟩
  · intro e o hmarks ⟨hlisted, he⟩
    refine ⟨hlisted.congr rfl rfl rfl fun _ hr => hr, ?_⟩
    rw [Engine.Abreast, hmarks.report]
    exact he

end Node

namespace Simulation

open Scenario (Step)

variable {s : State} {step : Step} {steps : List Step}

/-! ### Steps of a script -/

theorem abreast_next (hlisted : s.node.engine.Listed s.now) (h : s.node.engine.Abreast)
    (step : Step) : (s.next step).node.engine.Abreast := by
  obtain ⟨s', htaken, hnext⟩ := taken_next s step
  suffices hstate : s'.node.engine.Abreast by
    rw [hnext]
    exact hstate
  cases htaken with
  | rested now => exact h
  | called c hc => exact h.perform hlisted (Engine.Command.not_replaces_of_isBallot hc)
  | replanned epochs slots => exact h.perform hlisted rfl
  | started =>
    have htended : s.node.engine.processor.Tended (φ := Empty) s.now
        (s.node.engine.processor.startProcessing (φ := Empty) s.now).state :=
      .performed .startProcessing rfl
    rw [Engine.Abreast, htended.marks.report]
    exact h

theorem abreast_after (h : s.node.engine.UpToDate s.now) (habreast : s.node.engine.Abreast)
    (hforward : s.Forward steps) : (s.after steps).node.engine.Abreast := by
  induction steps generalizing s with
  | nil => exact habreast
  | cons step steps ih =>
    exact ih (upToDate_next h hforward.1) (abreast_next h.listed habreast step) hforward.2

/-- The call of a step is not refused by the oracle. -/
theorem afterEngine_accepted (h : s.node.engine.UpToDate s.now)
    (habreast : s.node.engine.Abreast) {c : Engine.Command (Oracle ReportLog)}
    (hc : c.replaces = false)
    {r : Reply (Engine.Error (Oracle.Error Empty)) (Engine (Oracle ReportLog)) Unit}
    (hr : s.node.engine.perform s.now c = Engine.perform.answerNone r)
    (cause : Oracle.Error Empty) :
    (s.afterEngine r).result ≠ .error (.engine (.processor cause)) := by
  have haccepted := Engine.perform_accepted willing_reportLog h.mirrored h.listed habreast hc cause
  rw [hr] at haccepted
  obtain ⟨result, e'⟩ := r
  cases result with
  | ok u => exact nofun
  | error err =>
    rintro ⟨⟩
    exact haccepted rfl

/-- No step is refused because the oracle refuses something that the engine asks for. -/
theorem apply_accepted (h : s.node.engine.UpToDate s.now) (habreast : s.node.engine.Abreast)
    (step : Step) (cause : Oracle.Error Empty) :
    (apply s step).result ≠ .error (.engine (.processor cause)) := by
  have hreply := replied_apply s step
  generalize apply s step = reply at hreply
  cases hreply with
  | moved now => exact nofun
  | frameless fault => exact nofun
  | called hc hr =>
    exact afterEngine_accepted h habreast (Engine.Command.not_replaces_of_isBallot hc) hr cause
  | replanned epochs slots =>
    exact afterEngine_accepted h habreast (c := .setFrameConfig _ _ _) rfl rfl cause
  | started =>
    rw [State.afterOracle]
    cases (s.node.engine.processor.startProcessing s.now).result with
    | ok previous => exact nofun
    | error err => exact nofun

/-! ### Plays -/

section Play

variable {c : Node.Config} {now : Word} {n : Node}

theorem abreast_play (h : Node.create c now = .ok n)
    (hforward : (Progress.start now n).state.Forward steps) :
    ((Progress.start now n).play 0 steps).state.node.engine.Abreast := by
  rw [play_state]
  exact abreast_after (upToDate_drained (Node.upToDate_of_create h))
    ((Node.abreast_of_create h).congr rfl rfl) hforward

end Play

/-- In a play against a new node on a clock that does not go back, no step is refused because the
oracle refuses something that the engine asks for. Where the play ends, whatever an accepted call is
about to make of the votes, the oracle gives back what it is asked for and takes what it is
handed. -/
theorem never_refused_by_oracle {c : Node.Config} {now : Word} {n : Node}
    (h : Node.create c now = .ok n) {steps : List Step}
    (hforward : (Progress.start now n).state.Forward steps) :
    let final := (Progress.start now n).play 0 steps
    let e := final.state.node.engine
    (∀ r ∈ final.rejected, ∀ cause, r.cause ≠ .engine (.processor cause)) ∧
      ∀ command e₁, e.Amends final.state.now command e₁ true →
        ∀ t, e₁.settlement final.state.now = .ok (some t) →
          (e₁.carryOut final.state.now t).result = .ok () := by
  intro final e
  constructor
  · intro r hr cause hcause
    obtain hnone | ⟨k, -, -, happly, -⟩ := (Progress.rested_start h).noted 0 hr
    · cases hnone
    · -- The play had come to the step on a clock that did not go back either.
      have hbefore : (Progress.start now n).state.Forward (steps.take k) := by
        rw [← List.take_append_drop k steps] at hforward
        exact (State.forward_append.mp hforward).1
      refine apply_accepted (upToDate_play h hbefore) (abreast_play h hbefore) r.step cause ?_
      rw [happly, hcause]
  · intro command e₁ hamends t ht
    have hupToDate : e.UpToDate final.state.now := upToDate_play h hforward
    exact Engine.carryOut_accepted willing_reportLog hupToDate.mirrored hupToDate.listed
      (abreast_play h hforward) hamends ht

/-- The committee changes its mind, loses the agreement and finds it again; its report is started,
and so is the next one. Only the vote that a member repeats and the one that names no report are
refused. The agreement on the third frame would be given back if the quorum were three. -/
theorem accepted_in_three_frames :
    let member (i : Nat) : Address := .ofLowByte (.ofNat (i + 1))
    let c := Node.Config.sample member 3
    let first := Octets.replicate 32 7
    let second := Octets.replicate 32 8
    let vote (i : Nat) (report : Digest) : Step := .submitReport (member i) report none none
    let steps : List Step :=
      [vote 0 first, vote 1 first, vote 1 first, vote 2 second, vote 1 second, .setQuorum 3,
        .setQuorum 2, .startProcessing, .advanceSlots 7200, vote 0 Octets.zero, vote 0 first,
        vote 1 first, .startProcessing, .advanceSlots 7200, vote 0 first, vote 2 first]
    ∃ n, Node.create c c.startTime = .ok n ∧
      (Progress.start c.startTime n).state.Forward steps ∧
      let final := (Progress.start c.startTime n).play 0 steps
      let e := final.state.node.engine
      final.rejected.map (·.index) = [2, 9] ∧
        (∀ r ∈ final.rejected, ∀ cause, r.cause ≠ .engine (.processor cause)) ∧
        let t : Engine.Settlement := ⟨⟨2, 14431, 21631⟩, true, none⟩
        (e.requorum 3).settlement final.state.now = .ok (some t) ∧
          ((e.requorum 3).carryOut final.state.now t).result = .ok () := by
  intro member c first second vote steps
  let final (n : Node) : Progress := (Progress.start c.startTime n).play 0 steps
  let t : Engine.Settlement := ⟨⟨2, 14431, 21631⟩, true, none⟩
  have hplay : (Node.create c c.startTime).toOption.any (fun n => decide (
      (Progress.start c.startTime n).state.Forward steps ∧
        (final n).rejected.map (·.index) = [2, 9] ∧
        Quorum.least (final n).state.node.engine.roster.count ≤ 3 ∧
        (final n).state.node.engine.roles.holds .manageMembersAndQuorum c.admin = true ∧
        (final n).state.node.engine.schedule.isActive (final n).state.now = true ∧
        (((final n).state.node.engine.requorum 3).settlement (final n).state.now).toOption =
          some (some t))) = true := by
    decide +kernel
  obtain ⟨n, hmade, hforward, hindices, hmajority, hrole, hactive, ht⟩ := exists_of_any hplay
  have ht := toOption_eq_some.mp ht
  obtain ⟨hown, haccepted⟩ := never_refused_by_oracle hmade hforward
  have hamends : (final n).state.node.engine.Amends (final n).state.now (.setQuorum c.admin 3)
      ((final n).state.node.engine.requorum 3) true :=
    hactive ▸ .setQuorum ⟨hmajority, fun _ => hrole⟩
  exact ⟨n, hmade, hforward, hindices, hown, ht, haccepted _ _ hamends t ht⟩

end Simulation

end ReportQuorum
