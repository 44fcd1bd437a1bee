import ReportQuorum.Proofs.Histories
import ReportQuorum.Proofs.Mirror
import ReportQuorum.Proofs.OracleLife

/-!
# Nodes that are made and played with

Making a node and playing a script with it amount to calls of its engine and starts of its oracle.
What those keep holds throughout every play.

## Main results

* `Node.invariant_of_grants`, `Node.invariant_of_create`: what holds of the engine of a new node
* `Node.mirrored_of_create`: in a new node engine and oracle agree
* `Simulation.agreed_iff_held`: they agree after every play
-/

namespace ReportQuorum

namespace Node

variable {e e' : Engine (Oracle ReportLog)} {now : Word}

theorem engineStep_eq_ok
    {r : Reply (Engine.Error (Oracle.Error Empty)) (Engine (Oracle ReportLog)) Unit} :
    engineStep r = .ok e' ↔ r = ⟨.ok (), e'⟩ := by
  obtain ⟨result, state⟩ := r
  cases result <;> simp [engineStep]

/-- Granting a role in the oracle changes its table of roles. -/
theorem eq_of_grantInOracle {admin : Address} {role : Role}
    (hok : grantInOracle admin e role = .ok e') :
    ∃ o roles changed,
      { e.processor with roles }.emitIf changed (.roleGranted role admin admin) = o ∧
        { e with processor := o } = e' := by
  rw [grantInOracle] at hok
  split at hok
  · cases hok
  next o ho =>
    cases hok
    obtain ⟨-, hgranted⟩ := Oracle.grantRole_eq_ok.mp ho
    exact ⟨o, _, _, hgranted, rfl⟩

/-- Granting a role in the oracle changes nothing that is held or marked. -/
theorem marks_of_grantInOracle {admin : Address} {role : Role}
    (hok : grantInOracle admin e role = .ok e') :
    ∃ o, e.processor.Marks o ∧ { e with processor := o } = e' := by
  obtain ⟨o, roles, changed, rfl, rfl⟩ := eq_of_grantInOracle hok
  exact ⟨_, ⟨by simp, by simp, by simp, .inl (by simp)⟩, rfl⟩

/-- What holds of a new engine over a new oracle holds of the engine of a new node, if calls that
neither replace the oracle nor vote and grants in the oracle keep it. -/
theorem invariant_of_grants {I : Engine (Oracle ReportLog) → Prop} {c : Config}
    (hnew : ∀ o e, Oracle.create (φ := Empty) (oracleSetup c) ({} : ReportLog) = .ok o →
      Engine.create (engineSetup c) o = .ok e → I e)
    (hcall : ∀ e c, c.replaces = false →
      (∀ sender vote version, c ≠ .submitReport sender vote version) → I e →
      I (e.perform now c).state)
    (hgrant : ∀ e role e', grantInOracle c.admin e role = .ok e' → I e → I e')
    {n : Node} (h : create c now = .ok n) : I n.engine := by
  have hstep : ∀ e e' c r, c.replaces = false →
      (∀ sender vote version, c ≠ .submitReport sender vote version) →
      (e.perform now c).state = r.state → engineStep r = .ok e' → I e → I e' := by
    intro e e' c r hc hvote hr hok he
    have hstate := hcall e c hc hvote he
    rw [hr, engineStep_eq_ok.mp hok] at hstate
    exact hstate
  simp only [create, bind_eq_ok, mapError_eq_ok] at h
  obtain ⟨-, -, o, ho, e₀, he₀, e₁, he₁, e₂, he₂, e₃, he₃, h⟩ := h
  have h₀ : I e₀ := hnew o e₀ ho he₀
  have h₁ : I e₁ := by
    refine invariant_of_foldlM_eq_ok ?_ h₀ he₁
    intro e role e' he hok
    exact hstep e e' (.grantRole c.admin role c.admin) _ rfl (by simp) rfl hok he
  have h₂ : I e₂ := by
    refine invariant_of_foldlM_eq_ok ?_ h₁ he₂
    intro e role e' he hok
    exact hgrant e role e' hok he
  have h₃ : I e₃ := by
    refine invariant_of_foldlM_eq_ok ?_ h₂ he₃
    intro e m e' he hok
    exact hstep e e' (.addMember c.admin m c.quorum) _ rfl (by simp) rfl hok he
  cases hinitial : c.initialEpoch with
  | none =>
    rw [hinitial] at h
    obtain ⟨e₄, he₄, h⟩ := bind_eq_ok.mp h
    obtain rfl := pure_eq_ok.mp h
    obtain rfl := pure_eq_ok.mp he₄
    exact h₃
  | some epoch =>
    rw [hinitial] at h
    obtain ⟨e₄, he₄, h⟩ := bind_eq_ok.mp h
    obtain rfl := pure_eq_ok.mp h
    exact hstep e₃ e₄ (.updateInitialEpoch c.admin epoch) _ rfl (by simp) rfl he₄ h₃

/-- What holds of a new engine over a new oracle holds of the engine of a new node, if calls that
neither replace the oracle nor vote and what the oracle does on its own keep it. -/
theorem invariant_of_create {I : Engine (Oracle ReportLog) → Prop} {c : Config}
    (hnew : ∀ o e, Oracle.create (φ := Empty) (oracleSetup c) ({} : ReportLog) = .ok o →
      Engine.create (engineSetup c) o = .ok e → I e)
    (hcall : ∀ e c, c.replaces = false →
      (∀ sender vote version, c ≠ .submitReport sender vote version) → I e →
      I (e.perform now c).state)
    (hmarks : ∀ e o, e.processor.Marks o → I e → I { e with processor := o })
    {n : Node} (h : create c now = .ok n) : I n.engine := by
  refine invariant_of_grants hnew hcall ?_ h
  intro e role e' hok he
  obtain ⟨o, ho, rfl⟩ := marks_of_grantInOracle hok
  exact hmarks e o ho he

/-- A new oracle holds nothing, and a new engine has noted nothing. -/
theorem mirrored_of_engine_create {c : Config} {o : Oracle ReportLog}
    (ho : Oracle.create (φ := Empty) (oracleSetup c) ({} : ReportLog) = .ok o)
    (he : Engine.create (engineSetup c) o = .ok e) : e.Mirrored := by
  have hmade := Oracle.created_of_create ho
  have hcreated := Engine.created_of_create he
  have hgrid : e.schedule.grid = c.grid := by
    rw [← (Schedule.dormant_eq_ok.mp hcreated.schedule).2.2]
    rfl
  refine ⟨?_, ?_, ?_, ?_⟩
  · rw [hcreated.processor, hcreated.address, hmade.engine]
    rfl
  · rw [hcreated.processor, hgrid, hmade.grid]
    rfl
  · rw [hcreated.tally]
    intro report hmem
    cases hmem
  · rw [hcreated.tally, hcreated.processor]
    exact (Oracle.held_eq_none.mpr (by rw [hmade.report])).symm

/-- In a new node engine and oracle agree. -/
theorem mirrored_of_create {c : Config} {n : Node} (h : create c now = .ok n) :
    n.engine.Mirrored := by
  refine invariant_of_create ?_ ?_ ?_ h
  · exact fun _ _ ho he => mirrored_of_engine_create ho he
  · exact fun _ _ hc _ he => he.perform hc
  · intro e o hmarks he
    exact he.with_processor hmarks.engine hmarks.grid (Oracle.held_congr hmarks.report)

end Node

namespace Simulation

open Scenario (Step)

/-- Fetching the events changes nothing that engine and oracle agree on. -/
theorem mirrored_drained {n : Node} (h : n.engine.Mirrored) : n.drained.engine.Mirrored :=
  ⟨h.bound, h.grid, h.named, h.agreed⟩

/-- No step of a play sets engine and oracle apart. -/
theorem mirrored_next {s : State} {step : Step} (h : s.node.engine.Mirrored) :
    (s.next step).node.engine.Mirrored := by
  obtain ⟨s', htaken, hnext⟩ := taken_next s step
  rw [hnext]
  refine mirrored_drained ?_
  cases htaken with
  | rested now => exact h
  | called c hc => exact h.perform (Engine.Command.not_replaces_of_isBallot hc)
  | replanned epochs slots => exact h.perform rfl
  | started => exact h.startProcessing

theorem mirrored_play {p : Progress} (hp : p.state.node.engine.Mirrored) (index : Nat)
    (steps : List Step) : (p.play index steps).state.node.engine.Mirrored := by
  induction steps generalizing p index with
  | nil => exact hp
  | cons step steps ih =>
    rw [Progress.play]
    exact ih (mirrored_next hp) (index + 1)

/-- After every play of a script the engine has noted a report as agreed exactly if the oracle holds
it, and none exactly if the oracle holds none. -/
theorem agreed_iff_held {c : Node.Config} {now : Word} {n : Node} (h : Node.create c now = .ok n)
    (steps : List Step) :
    let m := ((Progress.start now n).play 0 steps).state.node
    (∀ refSlot report, m.engine.tally.agreed = some ⟨refSlot, report⟩ ↔
        m.oracle.report.refSlot = refSlot ∧ m.oracle.report.report = report ∧
          report ≠ Octets.zero) ∧
      (m.engine.tally.agreed = none ↔ m.oracle.report.report = Octets.zero) := by
  intro m
  have hm : m.engine.Mirrored :=
    mirrored_play (mirrored_drained (Node.mirrored_of_create h)) 0 steps
  exact ⟨fun _ _ => hm.agreed_eq_some, hm.agreed_eq_none⟩

/-- After the only member of a committee has voted, the oracle holds its report. -/
theorem held_after_only_vote :
    let c := Node.Config.sample (fun i => .ofLowByte (.ofNat (i + 1))) 1
    let report := Octets.replicate 32 7
    ∃ n, Node.create c c.startTime = .ok n ∧
      let m := ((Progress.start c.startTime n).play 0
        [.submitReport (.ofLowByte 1) report none none]).state.node
      m.oracle.report.refSlot = 31 ∧ m.oracle.report.report = report := by
  intro c report
  have hnoted : ((Node.create c c.startTime).toOption.map fun n =>
      ((Progress.start c.startTime n).play 0
        [.submitReport (.ofLowByte 1) report none none]).state.node.engine.tally.agreed) =
      some (some ⟨31, report⟩) := by
    decide +kernel
  cases hmade : Node.create c c.startTime with
  | error cause => simp [hmade, Except.toOption] at hnoted
  | ok n =>
    rw [hmade] at hnoted
    have hheld := ((agreed_iff_held hmade [.submitReport (.ofLowByte 1) report none none]).1
      31 report).mp (Option.some.inj hnoted)
    exact ⟨n, rfl, hheld.1, hheld.2.1⟩

end Simulation

end ReportQuorum
