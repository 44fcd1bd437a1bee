import ReportQuorum.Proofs.Refusals
import ReportQuorum.Proofs.Runs
import ReportQuorum.Recorder

/-!
# Reports that are dropped half-way

A processor that changes nothing when it refuses a call is left as it was by a refused call of its
engine, but for one case: it gives back a report to make room for another and then refuses the
other. The engine takes its own changes back, and so goes on to believe that the processor holds the
first report.

## Main definitions

* `ReportProcessor.Steadfast`: a processor that a refusal does not change
* `ReportProcessor.TellsHeld`: what a processor is seen to hold
* `Recorder.held`: what the calls of a recorder leave with it

## Main results

* `Engine.kept_unless_dropped`: a refused call changes the processor only by a dropped report, and
  only then do the two disagree on what is held
* `Engine.dropped_on_refused_change`: a report is dropped when a member changes its vote
-/

namespace ReportQuorum

namespace ReportProcessor

variable {π ε : Type} [ReportProcessor π ε]

/-- Processors of a kind are left as they are by a call that they refuse. -/
structure Steadfast (π : Type) {ε : Type} [ReportProcessor π ε] : Prop where
  submit : ∀ {p q : π} {now : Word} {sender : Address} {report : Digest} {refSlot deadline : Word}
    {cause : ε}, submit p now sender report refSlot deadline = ⟨.error cause, q⟩ → q = p
  discard : ∀ {p q : π} {now : Word} {sender : Address} {refSlot : Word} {cause : ε},
    discard p now sender refSlot = ⟨.error cause, q⟩ → q = p

/-- A reading of what a processor holds for a reference slot: nothing is held that was given
back. -/
def TellsHeld (held : π → Word → Option Digest) : Prop :=
  ∀ {p q : π} {now : Word} {sender : Address} {refSlot : Word},
    discard (ε := ε) p now sender refSlot = ⟨.ok (), q⟩ → held q refSlot = none

end ReportProcessor

namespace Engine

open ReportProcessor (Steadfast TellsHeld)

variable {π ε : Type} [ReportProcessor π ε] {e e' : Engine π} {now : Word} {c : Command π} {p : π}
  {err : Error ε}

/-- A processor that a refusal does not change is left as it was by a refused call, unless it drops
a report. -/
theorem Refused.kept (h : e.Refused now c err p) (hsteadfast : Steadfast π)
    (hdrops : ∀ f d p q cause, ¬ e.Drops now c f d p q cause) : p = e.processor := by
  cases h with
  | unasked _ => rfl
  | withdrawal hp => exact hsteadfast.discard hp
  | handover hq => exact hsteadfast.submit hq
  | dropped h => exact absurd h (hdrops _ _ _ _ _)

/-- If a call is refused and the processor is one that a refusal does not change, then either the
processor is left as it was, or it has given back the report that was handed over, refuses the one
that now wins, and is left as it was between the two. What the engine has noted as handed over and
what the processor holds agree as before in the first case, and no longer do in the second. -/
theorem kept_unless_dropped (hsteadfast : Steadfast π) (h : e.perform now c = ⟨.error err, e'⟩) :
    ((∀ f d p q cause, ¬ e.Drops now c f d p q cause) → e'.processor = e.processor) ∧
      (∀ f d p q cause, e.Drops now c f d p q cause → e'.processor = p) ∧
      ∀ held : π → Word → Option Digest, TellsHeld held →
        (∀ refSlot, e.tally.agreedFor refSlot = held e.processor refSlot) →
        ((∀ refSlot, e'.tally.agreedFor refSlot = held e'.processor refSlot) ↔
          ∀ f d p q cause, ¬ e.Drops now c f d p q cause) := by
  obtain ⟨hrefused, hengine⟩ := refused h
  have hkept : (∀ f d p q cause, ¬ e.Drops now c f d p q cause) → e'.processor = e.processor :=
    hrefused.kept hsteadfast
  have hdropped : ∀ f d p q cause, e.Drops now c f d p q cause → e'.processor = p := by
    intro f d p q cause hdrops
    obtain ⟨_, _, -, hq⟩ := hdrops.refused
    obtain rfl := hsteadfast.submit hq
    rw [perform_of_drops hdrops] at h
    cases h
    rfl
  have htally : e'.tally = e.tally := by rw [← hengine]
  refine ⟨hkept, hdropped, fun held hheld hbefore => ⟨?_, ?_⟩⟩
  · rintro hafter f d p q cause hdrops
    -- The engine still notes the report, and the processor has given it back.
    obtain ⟨e₁, v, hover, -⟩ := hdrops.refused
    have hnoted := hafter f.refSlot
    rw [htally, hover.handed, hdropped f d p q cause hdrops, hheld hdrops.discarded] at hnoted
    cases hnoted
  · intro hdrops refSlot
    rw [htally, hkept hdrops]
    exact hbefore refSlot

end Engine

/-! ### A recorder that refuses -/

namespace Recorder

/-- What is held for a reference slot after one more call. -/
def Call.after (refSlot : Word) (held : Option Digest) : Call → Option Digest
  | .submit _ report slot _ => if slot = refSlot then some report else held
  | .discard _ slot => if slot = refSlot then none else held

/-- What the calls of a recorder leave with it for a reference slot. -/
def held (r : Recorder) (refSlot : Word) : Option Digest := r.calls.foldl (Call.after refSlot) none

theorem steadfast : ReportProcessor.Steadfast Recorder where
  submit {p _ _ _ _ _ _ _} h := by
    change ite _ _ _ = _ at h
    split at h
    · cases h
      rfl
    · cases h
  discard {p _ _ _ _ _} h := by
    change ite _ _ _ = _ at h
    split at h
    · cases h
      rfl
    · cases h

theorem fixedAddress : ReportProcessor.FixedAddress Recorder where
  submit r _ _ _ _ _ := by
    change (ite _ _ _ : Reply Refusal Recorder Unit).state.address = r.address
    split <;> rfl
  discard r _ _ _ := by
    change (ite _ _ _ : Reply Refusal Recorder Unit).state.address = r.address
    split <;> rfl

theorem tellsHeld_held : ReportProcessor.TellsHeld held := by
  intro p q now sender refSlot h
  change ite _ _ _ = _ at h
  split at h
  · cases h
  · cases h
    simp [held, note, Call.after]

end Recorder

namespace Engine

namespace Recorded

/-- The holder of all roles. -/
def admin : Address := .ofLowByte 9

def setup : Setup := ⟨.ofLowByte 8, ⟨32, 12, 100⟩, 1, 0, admin⟩

def recorder : Recorder := { address := .ofLowByte 7, version := 1, processingSlot := 0 }

/-- The report of one octet, repeated. -/
def reportOf (octet : UInt8) : Digest := Octets.replicate 32 octet

/-- The only member votes. -/
def vote (octet : UInt8) : Command Recorder := .submitReport (.ofLowByte 1) ⟨31, reportOf octet⟩ 1

/-- The only member of a committee votes, and then something happens to the recorder. -/
def before (change : Recorder → Recorder) : List (Word × Act Recorder) :=
  [(484, .call (.grantRole admin .manageMembersAndQuorum admin)),
    (484, .call (.addMember admin (.ofLowByte 1) 1)), (484, .call (.updateInitialEpoch admin 1)),
    (484, .call (vote 1)), (484, .tend change)]

end Recorded

open Recorded

/-- A recorder that refuses to give back its report is left as it was when the member changes its
vote, and still holds what the engine has noted. -/
theorem kept_on_refused_withdrawal :
    ∃ e₀, create setup recorder = .ok e₀ ∧
      let e := e₀.after (before ({ · with rejectsDiscard := true }))
      let r := e.perform 484 (vote 2)
      r.result = .error (.processor .discard) ∧ r.state.processor = e.processor ∧
        ∀ refSlot, r.state.tally.agreedFor refSlot = r.state.processor.held refSlot := by
  have hrun : (create setup recorder).toOption.any (fun e₀ =>
      let e := e₀.after (before ({ · with rejectsDiscard := true }))
      decide (e.processor.rejectsDiscard = true ∧ e.tally.agreed = some ⟨31, reportOf 1⟩ ∧
        e.processor.calls = [.submit (.ofLowByte 8) (reportOf 1) 31 856] ∧
        (e.perform 484 (vote 2)).result = .error (.processor .discard))) = true := by
    decide +kernel
  obtain ⟨e₀, hmade, hend⟩ := exists_of_any hrun
  refine ⟨e₀, hmade, ?_⟩
  generalize e₀.after (before ({ · with rejectsDiscard := true })) = e at hend ⊢
  obtain ⟨hrejects, hagreed, hcalls, hresult⟩ := hend
  have hdrops : ∀ f d p q cause, ¬ e.Drops 484 (vote 2) f d p q cause := by
    intro f d p q cause h
    have hdiscard := h.discarded
    change ite _ _ _ = _ at hdiscard
    rw [if_pos hrejects] at hdiscard
    cases hdiscard
  have hheld : ∀ refSlot, e.tally.agreedFor refSlot = e.processor.held refSlot := by
    intro refSlot
    rw [Tally.agreedFor, hagreed, Recorder.held, hcalls]
    rfl
  have hrefused : e.perform 484 (vote 2) =
      ⟨.error (.processor .discard), (e.perform 484 (vote 2)).state⟩ := by
    rw [← hresult]
  obtain ⟨hkept, -, hagree⟩ := kept_unless_dropped Recorder.steadfast hrefused
  exact ⟨hresult, hkept hdrops, (hagree Recorder.held Recorder.tellsHeld_held hheld).mpr hdrops⟩

/-- When the only member changes its vote and the recorder takes no report any more, the recorder
has given back the report that the engine still notes as handed over. -/
theorem dropped_on_refused_change :
    ReportProcessor.Steadfast Recorder ∧ ∃ e₀, create setup recorder = .ok e₀ ∧
      let e := e₀.after (before ({ · with rejectsSubmit := true }))
      let r := e.perform 484 (vote 2)
      r.result = .error (.processor .submit) ∧ r.state.processor ≠ e.processor ∧
        e.tally.agreedFor 31 = some (reportOf 1) ∧ e.processor.held 31 = some (reportOf 1) ∧
        r.state.tally.agreedFor 31 = some (reportOf 1) ∧ r.state.processor.held 31 = none := by
  have hrun : (create setup recorder).toOption.any (fun e₀ =>
      let e := e₀.after (before ({ · with rejectsSubmit := true }))
      let r := e.perform 484 (vote 2)
      decide (r.result = .error (.processor .submit) ∧ r.state.processor ≠ e.processor ∧
        e.tally.agreedFor 31 = some (reportOf 1) ∧ e.processor.held 31 = some (reportOf 1) ∧
        r.state.tally.agreedFor 31 = some (reportOf 1) ∧ r.state.processor.held 31 = none)) =
      true := by
    decide +kernel
  obtain ⟨e₀, hmade, hlost⟩ := exists_of_any hrun
  exact ⟨Recorder.steadfast, e₀, hmade, hlost⟩

end Engine

end ReportQuorum
