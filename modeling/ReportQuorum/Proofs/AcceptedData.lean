import ReportQuorum.Proofs.OracleRuns

/-!
# The data that an oracle takes for agreed on

Data is compared with the report that the oracle holds. That report is the one that was handed over
last, as long as it has not been withdrawn; but when the oracle holds none, the zero digest stands in
its place, and data with that digest passes for agreed on although nothing is.

## Main results

* `Oracle.checkData_eq_ok`: what data is compared with
* `Oracle.report_after_of_undisturbed`: nothing but another report and its withdrawal moves a report
* `Oracle.handedLast_iff`: the report that a new oracle holds is the one handed over last
* `Oracle.data_accepted_iff`: which data is accepted
* `Oracle.zero_taken_for_agreed`: the zero digest is accepted where nothing is agreed on
-/

namespace ReportQuorum.Oracle

variable {η φ : Type} {o new : Oracle η} {now refSlot version : Word} {data : Digest} {r : Report}

/-- Data has to name the slot and the digest of the report held and the version of the oracle. -/
theorem checkData_eq_ok {u : Unit} : o.checkData (φ := φ) refSlot version data = .ok u ↔
    refSlot = o.report.refSlot ∧ version = o.version ∧ data = o.report.report := by
  rw [checkData, refusal_eq_ok (by simp), refusal_eq_ok (by simp), refusal_eq_ok (by simp)]
  simp

variable [ReportHandler η φ]

/-! ### The report held is the one handed over last -/

/-- A withdrawal that is not allowed, or is for another slot, leaves the report held. -/
theorem report_act_discard {sender : Address} {slot : Word}
    (h : slot = o.report.refSlot → o.allows now (.discard sender slot) = false) :
    (o.act now (.call (.discard sender slot))).report = o.report := by
  have hd := o.discarded (φ := φ) sender slot
  rw [allows, perform] at h
  rw [act, perform]
  generalize o.discard (φ := φ) sender slot = r at h hd
  cases hd with
  | refused _ _ => rfl
  | nothing _ => rfl
  | handlerRefused _ => rfl
  | withdrawn _ hslot _ _ => cases h hslot.symm

/-- An act that hands nothing over and withdraws nothing leaves the report held. -/
theorem report_act_of_undisturbed {a : Act η} (ha : o.Undisturbed o.report.refSlot now a) :
    (o.act now a).report = o.report := by
  cases a with
  | tend f => rfl
  | drain => rfl
  | call c =>
    have hp := o.performed now c
    change o.Performed now c (o.act now (.call c)) at hp
    generalize hact : o.act now (.call c) = o' at hp
    cases c with
    | submit sender report slot deadline =>
      rw [← hact]
      exact congrArg Oracle.report (act_of_not_allows_submit ha)
    | discard sender slot =>
      rw [← hact]
      exact report_act_discard ha
    | startProcessing =>
      cases hp with
      | unmoved h _ => exact h.report
      | started _ => rfl
    | _ =>
      cases hp with
      | unmoved h _ => exact h.report

theorem report_after_of_undisturbed {run : List (Word × Act η)}
    (hrun : o.Throughout (Undisturbed o.report.refSlot) run) : (o.after run).report = o.report := by
  induction run generalizing o with
  | nil => rfl
  | cons x run ih =>
    have hfirst := report_act_of_undisturbed hrun.1
    have hrest := hrun.2
    rw [← hfirst] at hrest
    rw [after, ih hrest, hfirst]

/-- A report that was handed over last is held, and its digest is not zero. -/
theorem HandedLast.held {run : List (Word × Act η)} (h : o.HandedLast run r) :
    (o.after run).report = r ∧ r.report ≠ Octets.zero := by
  obtain ⟨before, time, sender, rest, rfl, hallows, hrest⟩ := h
  obtain ⟨haccepts, htaken⟩ := allows_submit hallows
  have hreport : ((o.after before).act time
      (.call (.submit sender r.report r.refSlot r.deadline))).report = r := by
    rw [htaken, taking_report]
  refine ⟨?_, haccepts.report⟩
  rw [after_append, after, report_after_of_undisturbed (by rwa [hreport]), hreport]

/-- The report that a new oracle holds after a run, if any, is the one that was handed over last and
has not been withdrawn since. -/
theorem handedLast_iff {setup : Setup} {handler : η} (h : create (φ := φ) setup handler = .ok new)
    (run : List (Word × Act η)) :
    new.HandedLast run r ↔ (new.after run).report = r ∧ r.report ≠ Octets.zero := by
  refine ⟨HandedLast.held, ?_⟩
  rintro ⟨rfl, hpending⟩
  obtain hhanded | ⟨hkept, -⟩ := handedLast_or_kept run hpending
  · exact hhanded
  · -- What a new oracle holds is no report.
    rw [hkept, (created_of_create h).report] at hpending
    exact absurd rfl hpending

/-! ### Accepted data -/

/-- In every run of a new oracle, with any calls at any moments and whatever its handler does and
refuses: data with another digest than zero is accepted exactly if it names the version of the oracle
and the digest and the slot of the report that was handed over last and has not been withdrawn since.
The zero digest is accepted exactly if there is no such report, and then for the slot of the last one
and the version of the oracle. -/
theorem data_accepted_iff {setup : Setup} {handler : η}
    (h : create (φ := φ) setup handler = .ok new) (run : List (Word × Act η))
    (refSlot version : Word) (data : Digest) :
    let o := new.after run
    (data ≠ Octets.zero →
      (o.checkData (φ := φ) refSlot version data = .ok () ↔
        version = o.version ∧ ∃ deadline, new.HandedLast run ⟨data, refSlot, deadline⟩)) ∧
    (data = Octets.zero →
      (o.checkData (φ := φ) refSlot version data = .ok () ↔
        version = o.version ∧ refSlot = o.report.refSlot ∧ ∀ r, ¬ new.HandedLast run r)) := by
  intro o
  rw [checkData_eq_ok]
  simp only [handedLast_iff h]
  refine ⟨fun hdata => ⟨?_, ?_⟩, ?_⟩
  · rintro ⟨hslot, hversion, hreport⟩
    refine ⟨hversion, o.report.deadline, ?_, hdata⟩
    rw [hslot, hreport]
  · rintro ⟨hversion, deadline, hheld, -⟩
    change o.report = _ at hheld
    rw [hheld]
    exact ⟨rfl, hversion, rfl⟩
  · rintro rfl
    constructor
    · rintro ⟨hslot, hversion, hreport⟩
      refine ⟨hversion, hslot, ?_⟩
      rintro _ ⟨rfl, hpending⟩
      exact hpending hreport.symm
    · rintro ⟨hversion, hslot, hnone⟩
      refine ⟨hslot, hversion, ?_⟩
      by_cases hpending : o.report.report = Octets.zero
      · exact hpending.symm
      · exact absurd ⟨rfl, hpending⟩ (hnone _)

open Guarded in
/-- The third report is held for the second slot: its data is accepted, and that of the one withdrawn
before is not. -/
theorem accepted_after_withdrawal :
    ∃ new, create (φ := GuardedLog.Refusal) setup ({} : GuardedLog) = .ok new ∧
      let o := new.after beforeStart
      let second := Octets.replicate 32 2
      let third := Octets.replicate 32 3
      third ≠ Octets.zero ∧ o.checkData (φ := GuardedLog.Refusal) 63 1 third = .ok () ∧
        (∃ deadline, new.HandedLast beforeStart ⟨third, 63, deadline⟩) ∧
        o.checkData (φ := GuardedLog.Refusal) 63 1 second ≠ .ok () ∧
        ¬ ∃ deadline, new.HandedLast beforeStart ⟨second, 63, deadline⟩ := by
  let second := Octets.replicate 32 2
  let third := Octets.replicate 32 3
  have hrun : (create (φ := GuardedLog.Refusal) setup ({} : GuardedLog)).toOption.any
      (fun new => decide ((new.after beforeStart).version = 1 ∧
        (new.after beforeStart).report = ⟨third, 63, 1240⟩)) = true := by
    decide +kernel
  have hdigests : second ≠ Octets.zero ∧ third ≠ Octets.zero ∧ second ≠ third := by decide +kernel
  obtain ⟨new, hmade, hversion, hreport⟩ := exists_of_any hrun
  obtain ⟨hsecond, hthird, hne⟩ := hdigests
  have haccepted : (new.after beforeStart).checkData (φ := GuardedLog.Refusal) 63 1 third =
      .ok () := by
    rw [checkData_eq_ok, hversion, hreport]
    exact ⟨rfl, rfl, rfl⟩
  have hrefused : (new.after beforeStart).checkData (φ := GuardedLog.Refusal) 63 1 second ≠
      .ok () := by
    rw [Ne, checkData_eq_ok, hreport]
    exact fun h => hne h.2.2
  have hiff := (data_accepted_iff hmade beforeStart 63 1 second).1 hsecond
  refine ⟨new, hmade, hthird, haccepted,
    (((data_accepted_iff hmade beforeStart 63 1 third).1 hthird).mp haccepted).2, hrefused, ?_⟩
  exact fun hhanded => hrefused (hiff.mpr ⟨hversion.symm, hhanded⟩)

open Guarded in
/-- The zero digest is taken for agreed on: by a new oracle, to which nothing has been handed over,
and again after a report has been withdrawn. -/
theorem zero_taken_for_agreed :
    let run := [(484, submission 1 31 856), (490, .call (.discard Guarded.engine 31))]
    ∃ new, create (φ := GuardedLog.Refusal) setup ({} : GuardedLog) = .ok new ∧
      new.checkData (φ := GuardedLog.Refusal) 7 1 Octets.zero = .ok () ∧
      (∀ r, ¬ new.HandedLast [] r) ∧
      (new.after run).checkData (φ := GuardedLog.Refusal) 31 1 Octets.zero = .ok () ∧
      ∀ r, ¬ new.HandedLast run r := by
  intro run
  have hrun : (create (φ := GuardedLog.Refusal) setup ({} : GuardedLog)).toOption.any
      (fun new => decide (new.version = 1 ∧ new.report = ⟨Octets.zero, 7, 0⟩ ∧
        (new.after run).version = 1 ∧ (new.after run).report = ⟨Octets.zero, 31, 856⟩)) = true := by
    decide +kernel
  obtain ⟨new, hmade, hversion, hreport, hversion', hreport'⟩ := exists_of_any hrun
  refine ⟨new, hmade, ?_, fun r hhanded => ?_, ?_, fun r hhanded => ?_⟩
  · rw [checkData_eq_ok, hversion, hreport]
    exact ⟨rfl, rfl, rfl⟩
  · obtain ⟨rfl, hpending⟩ := hhanded.held
    exact hpending (congrArg Report.report hreport)
  · rw [checkData_eq_ok, hversion', hreport']
    exact ⟨rfl, rfl, rfl⟩
  · obtain ⟨rfl, hpending⟩ := hhanded.held
    exact hpending (congrArg Report.report hreport')

end ReportQuorum.Oracle
