import ReportQuorum.Engine.Settlement

/-!
# How settling the votes ends

Settling the votes either leaves everything as it is, or tells the processor of a new outcome. The
processor may refuse any part of that, and then nothing is noted. All that a settlement can do is
listed once, and what later modules need of it is read off the list.

## Main definitions

* `Engine.Open`: the votes of a frame may still change what the processor holds
* `Engine.Withdrawn`: the processor after it was asked to give back what it was handed
* `Engine.Settled`: the ways in which settling the votes ends
* `Engine.SameVotes`: what no settlement changes

## Main results

* `Engine.settled`: these are all the ways
* `Tally.exists_of_winner`: what a winner is
-/

namespace ReportQuorum

namespace Tally

variable {t : Tally} {refSlot quorum : Word} {r : Roster} {v : Variant}

/-- The variants for a reference slot are the reports of the list, if it is the slot of the list,
with their supports. -/
theorem mem_variants : v ∈ t.variants refSlot r ↔
    t.refSlot = refSlot ∧ v.report ∈ t.reports ∧ v.support = r.support ⟨refSlot, v.report⟩ := by
  rw [variants]
  split
  next hslot =>
    rw [List.mem_map]
    constructor
    · rintro ⟨d, hd, rfl⟩
      exact ⟨hslot, hd, rfl⟩
    · rintro ⟨-, hd, hsupport⟩
      exact ⟨v.report, hd, by rw [← hsupport]⟩
  next hslot => simp [hslot]

/-- A winner was named for the reference slot, and its support is positive and no less than the
quorum. -/
theorem exists_of_winner (h : t.winner refSlot quorum r = some v) :
    v.report ∈ t.reports ∧ v.support = r.support ⟨refSlot, v.report⟩ ∧ 0 < v.support ∧
      quorum ≤ v.support := by
  obtain ⟨-, hreport, hsupport⟩ := mem_variants.mp (List.mem_of_find?_eq_some h)
  have hlarge := List.find?_some h
  simp only [Bool.and_eq_true, decide_eq_true_eq] at hlarge
  exact ⟨hreport, hsupport, hlarge.1, hlarge.2⟩

theorem agreedFor_eq_some_iff {d : Digest} :
    t.agreedFor refSlot = some d ↔ t.agreed = some ⟨refSlot, d⟩ := by
  cases h : t.agreed with
  | none => simp [agreedFor, h]
  | some v =>
    obtain ⟨slot, report⟩ := v
    by_cases hslot : slot = refSlot <;> simp [agreedFor, h, hslot]

end Tally

namespace Engine

variable {π ε : Type} [ReportProcessor π ε] {e : Engine π} {now : Word}

/-- The votes of the current frame may still change what the processor holds: the deadline slot has
not passed, and the processor has not started to process the frame's report. -/
structure Open (e : Engine π) (now : Word) (f : Frame) : Prop where
  current : e.schedule.frameAt now = .ok f
  timely : e.schedule.grid.slotAt now ≤ f.deadlineSlot
  unlocked : ReportProcessor.isProcessing e.processor f.refSlot = false

/-- The report that reaches the quorum for a reference slot. -/
def winnerFor (e : Engine π) (refSlot : Word) : Option Variant :=
  e.tally.winner refSlot e.quorum e.roster

omit [ReportProcessor π ε] in
/-- Who wins depends on the list, the seats and the quorum only. -/
theorem winnerFor_congr {e' : Engine π} (hslot : e'.tally.refSlot = e.tally.refSlot)
    (hreports : e'.tally.reports = e.tally.reports) (hroster : e'.roster = e.roster)
    (hquorum : e'.quorum = e.quorum) (refSlot : Word) :
    e'.winnerFor refSlot = e.winnerFor refSlot := by
  rw [winnerFor, winnerFor, Tally.winner, Tally.winner, Tally.variants, Tally.variants, hslot,
    hreports, hroster, hquorum]

/-- The processor after it was asked to give back what it was handed for a reference slot, if it
was handed anything. -/
inductive Withdrawn (e : Engine π) (now refSlot : Word) : π → Prop
  | nothing (h : e.tally.agreedFor refSlot = none) : Withdrawn e now refSlot e.processor
  | accepted {d : Digest} {p : π} (h : e.tally.agreedFor refSlot = some d)
      (hp : ReportProcessor.discard e.processor now e.address refSlot = ⟨.ok (), p⟩) :
      Withdrawn e now refSlot p

/-- The ways in which settling the votes ends. -/
inductive Settled (e : Engine π) (now : Word) : Reply (Error ε) (Engine π) Unit → Prop
  /-- There is no current frame. -/
  | notStarted {cause : Schedule.Error} (h : e.schedule.frameAt now = .error cause) :
      Settled e now ⟨.error (.schedule cause), e⟩
  /-- The votes no longer matter. -/
  | closed {f : Frame} (h : e.schedule.frameAt now = .ok f) (hf : ¬ e.Open now f) :
      Settled e now ⟨.ok (), e⟩
  /-- The outcome is the one that was handed over. -/
  | unchanged {f : Frame} (h : e.Open now f)
      (same : (e.winnerFor f.refSlot).map (·.report) = e.tally.agreedFor f.refSlot) :
      Settled e now ⟨.ok (), e⟩
  /-- The processor refuses to give back what it was handed. -/
  | withdrawalRefused {f : Frame} {d : Digest} {err : ε} {p : π} (h : e.Open now f)
      (held : e.tally.agreedFor f.refSlot = some d)
      (hp : ReportProcessor.discard e.processor now e.address f.refSlot = ⟨.error err, p⟩) :
      Settled e now ⟨.error (.processor err), { e with processor := p }⟩
  /-- No report reaches the quorum any more, and the processor gives back what it was handed. -/
  | lost {f : Frame} {d : Digest} {p : π} (h : e.Open now f)
      (noWinner : e.winnerFor f.refSlot = none) (held : e.tally.agreedFor f.refSlot = some d)
      (hp : ReportProcessor.discard e.processor now e.address f.refSlot = ⟨.ok (), p⟩) :
      Settled e now
        ⟨.ok (), { e with processor := p, tally := e.tally.setAgreed f.refSlot none }.emit
          (.consensusLost f.refSlot)⟩
  /-- The processor refuses the report that now reaches the quorum. -/
  | handoverRefused {f : Frame} {v : Variant} {err : ε} {p q : π} (h : e.Open now f)
      (winner : e.winnerFor f.refSlot = some v)
      (new : e.tally.agreedFor f.refSlot ≠ some v.report) (hp : e.Withdrawn now f.refSlot p)
      (hq : ReportProcessor.submit p now e.address v.report f.refSlot (e.schedule.deadlineTime f) =
        ⟨.error err, q⟩) :
      Settled e now ⟨.error (.processor err), { e with processor := q }⟩
  /-- The processor takes the report that now reaches the quorum. -/
  | reached {f : Frame} {v : Variant} {p q : π} (h : e.Open now f)
      (winner : e.winnerFor f.refSlot = some v)
      (new : e.tally.agreedFor f.refSlot ≠ some v.report) (hp : e.Withdrawn now f.refSlot p)
      (hq : ReportProcessor.submit p now e.address v.report f.refSlot (e.schedule.deadlineTime f) =
        ⟨.ok (), q⟩) :
      Settled e now
        ⟨.ok (), { e with processor := q, tally := e.tally.setAgreed f.refSlot v.report }.emit
          (.consensusReached f.refSlot v.report v.support)⟩

/-- All is the same that the outcome of a settlement depends on. -/
structure SameVotes (e e' : Engine π) : Prop where
  address : e'.address = e.address
  schedule : e'.schedule = e.schedule
  roster : e'.roster = e.roster
  quorum : e'.quorum = e.quorum
  refSlot : e'.tally.refSlot = e.tally.refSlot
  reports : e'.tally.reports = e.tally.reports
  roles : e'.roles = e.roles

/-- Settling the votes changes none of it. -/
theorem Settled.sameVotes {r : Reply (Error ε) (Engine π) Unit} (h : e.Settled now r) :
    e.SameVotes r.state := by
  cases h <;> constructor <;> rfl

/-- A settlement that fails has changed nothing but the processor. -/
theorem Settled.eq_of_error {e₂ : Engine π} {err : Error ε} (h : e.Settled now ⟨.error err, e₂⟩) :
    ∃ processor, { e with processor } = e₂ := by
  cases h with
  | notStarted _ => exact ⟨e.processor, rfl⟩
  | withdrawalRefused _ _ _ => exact ⟨_, rfl⟩
  | handoverRefused _ _ _ _ _ => exact ⟨_, rfl⟩

/-! ### What is told to the processor -/

theorem settlement_of_error {cause : Schedule.Error} (h : e.schedule.frameAt now = .error cause) :
    e.settlement now = .error cause := by
  rw [settlement, h]

/-- Nothing is told of a frame whose votes no longer matter. -/
theorem settlement_of_closed {f : Frame} (h : e.schedule.frameAt now = .ok f)
    (hf : ¬ e.Open now f) : e.settlement now = .ok none := by
  rw [settlement, h]
  by_cases hslot : f.deadlineSlot < e.schedule.grid.slotAt now
  · simp only [hslot, if_true]
  · cases hlock : ReportProcessor.isProcessing e.processor f.refSlot with
    | false => exact absurd ⟨h, by simpa using hslot, hlock⟩ hf
    | true => simp only [hslot, hlock, if_true, if_false]

/-- Of an open frame a new outcome is told. -/
theorem settlement_of_open {f : Frame} (h : e.Open now f) :
    e.settlement now =
      if (e.winnerFor f.refSlot).map (·.report) = e.tally.agreedFor f.refSlot then .ok none
      else .ok (some
        { frame := f, withdraws := (e.tally.agreedFor f.refSlot).isSome
          winner := e.winnerFor f.refSlot }) := by
  have hslot : ¬ f.deadlineSlot < e.schedule.grid.slotAt now := by simpa using h.timely
  rw [settlement, h.current]
  simp only [hslot, h.unlocked, if_false, Bool.false_eq_true]
  rfl

/-- A processor that was handed nothing is not asked to give anything back. -/
theorem withdraw_of_nothing {s : Settlement} (h : s.withdraws = false) :
    e.withdraw (ε := ε) now s = ⟨.ok (), e.processor⟩ := by
  rw [withdraw, h]
  rfl

theorem withdraw_of_held {s : Settlement} (h : s.withdraws = true) :
    e.withdraw now s =
      (ReportProcessor.discard e.processor now e.address s.frame.refSlot).map .processor id := by
  rw [withdraw, h]
  rfl

/-! ### The list is complete -/

/-- Handing over a report after the processor has given back what it held. -/
theorem settled_carryOut {f : Frame} {v : Variant} {p : π} (h : e.Open now f)
    (winner : e.winnerFor f.refSlot = some v) (new : e.tally.agreedFor f.refSlot ≠ some v.report)
    (hp : e.Withdrawn now f.refSlot p) {s : Settlement} (hframe : s.frame = f)
    (hwinner : s.winner = some v) (hwithdraw : e.withdraw (ε := ε) now s = ⟨.ok (), p⟩) :
    e.Settled now (e.carryOut now s) := by
  subst hframe
  rw [carryOut, hwithdraw, hwinner]
  dsimp only
  split
  next hq => exact .handoverRefused h winner new hp hq
  next hq => exact .reached h winner new hp hq

/-- Settling the votes ends in one of the ways listed. -/
theorem settled (e : Engine π) (now : Word) : e.Settled now (e.settle now) := by
  cases hf : e.schedule.frameAt now with
  | error cause =>
    rw [settle, settlement_of_error hf]
    exact .notStarted hf
  | ok f =>
    by_cases hopen : e.Open now f
    · rw [settle, settlement_of_open hopen]
      by_cases same : (e.winnerFor f.refSlot).map (·.report) = e.tally.agreedFor f.refSlot
      · rw [if_pos same]
        exact .unchanged hopen same
      rw [if_neg same]
      dsimp only
      -- What is left depends on whether something was handed over before.
      cases held : e.tally.agreedFor f.refSlot with
      | none =>
        cases winner : e.winnerFor f.refSlot with
        | none => simp [held, winner] at same
        | some v =>
          exact settled_carryOut hopen winner (by simp [held]) (.nothing held) rfl rfl
            (withdraw_of_nothing rfl)
      | some d =>
        cases hp : ReportProcessor.discard e.processor now e.address f.refSlot with
        | mk result p =>
          cases result with
          | error err =>
            rw [carryOut, withdraw_of_held rfl, hp]
            exact .withdrawalRefused hopen held hp
          | ok u =>
            cases winner : e.winnerFor f.refSlot with
            | none =>
              rw [carryOut, withdraw_of_held rfl, hp]
              exact .lost hopen winner held hp
            | some v =>
              have new : e.tally.agreedFor f.refSlot ≠ some v.report := by
                intro h
                simp [h, winner] at same
              refine settled_carryOut hopen winner new (.accepted held hp) rfl rfl ?_
              rw [withdraw_of_held rfl, hp]
              rfl
    · rw [settle, settlement_of_closed hf hopen]
      exact .closed hf hopen

end Engine

end ReportQuorum
