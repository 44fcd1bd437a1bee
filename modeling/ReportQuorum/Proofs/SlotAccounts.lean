import ReportQuorum.Proofs.OracleRuns

/-!
# What becomes of the slots handed over

An oracle tells of every report that it takes, of every report that it starts to process, and of
every reference slot that it passes over. Whoever calls it, at whichever moments, and whatever its
handler refuses: each reference slot that was handed over is either processed or passed over by the
time that another one is handed over, and its events tell which, once.

## Main definitions

* `Oracle.log`: all that an oracle tells during a run, whether it is fetched or not
* `Oracle.submittedSlots`, `Oracle.starts`, `Oracle.misses`: what events tell of reference slots
* `Oracle.Tells`: what an act tells of reference slots
* `Oracle.Accounted`: the events so far account for the slot held and for all before it

## Main results

* `Oracle.tells_act`: the list of what an act tells is complete
* `Oracle.Accounted.act`: every act keeps the account
* `Oracle.slots_accounted`: what the events of a new oracle tell in every run
-/

namespace ReportQuorum.Oracle

/-! ### What events tell of slots -/

namespace Event

/-- The reference slot whose processing an event says has started. -/
def startedSlot? : Event → Option Word
  | .processingStarted refSlot _ => some refSlot
  | _ => none

/-- The reference slot that an event says was passed over. -/
def missedSlot? : Event → Option Word
  | .processingMissed refSlot => some refSlot
  | _ => none

/-- Whether an event tells what becomes of a reference slot. -/
def isNotice : Event → Bool
  | .reportSubmitted .. => true
  | .processingStarted .. => true
  | .processingMissed .. => true
  | _ => false

end Event

/-- The reference slots that were handed over, in their order. -/
def submittedSlots (log : List Event) : List Word :=
  (log.filterMap Event.submitted?).map (·.refSlot)

/-- How often the processing of a reference slot has started. -/
def starts (log : List Event) (slot : Word) : Nat := (log.filterMap Event.startedSlot?).count slot

/-- How often a reference slot was passed over. -/
def misses (log : List Event) (slot : Word) : Nat := (log.filterMap Event.missedSlot?).count slot

section Counts

variable (seen told : List Event) (slot refSlot deadline : Word) (report : Digest)

@[simp] theorem submittedSlots_append :
    submittedSlots (seen ++ told) = submittedSlots seen ++ submittedSlots told := by
  simp [submittedSlots]

@[simp] theorem starts_append :
    starts (seen ++ told) slot = starts seen slot + starts told slot := by
  simp [starts]

@[simp] theorem misses_append :
    misses (seen ++ told) slot = misses seen slot + misses told slot := by
  simp [misses]

@[simp] theorem submittedSlots_submitted :
    submittedSlots [.reportSubmitted refSlot report deadline] = [refSlot] := rfl

@[simp] theorem starts_submitted : starts [.reportSubmitted refSlot report deadline] slot = 0 := rfl

@[simp] theorem misses_submitted : misses [.reportSubmitted refSlot report deadline] slot = 0 := rfl

@[simp] theorem submittedSlots_started : submittedSlots [.processingStarted refSlot report] = [] :=
  rfl

@[simp] theorem starts_started :
    starts [.processingStarted refSlot report] slot = if slot = refSlot then 1 else 0 := by
  simp only [starts, Event.startedSlot?, List.filterMap_cons, List.filterMap_nil,
    List.count_singleton, beq_iff_eq, @eq_comm _ slot]

@[simp] theorem misses_started : misses [.processingStarted refSlot report] slot = 0 := rfl

end Counts

/-- Events that are no notices tell nothing of any slot. -/
theorem silent_of_not_isNotice {told : List Event} (h : ∀ event ∈ told, event.isNotice = false) :
    submittedSlots told = [] ∧ ∀ slot, starts told slot = 0 ∧ misses told slot = 0 := by
  have hnone (event : Event) (hmem : event ∈ told) :
      event.submitted? = none ∧ event.startedSlot? = none ∧ event.missedSlot? = none := by
    have hquiet := h event hmem
    cases event <;> first | exact ⟨rfl, rfl, rfl⟩ | cases hquiet
  refine ⟨?_, fun slot => ⟨?_, ?_⟩⟩
  · rw [submittedSlots, List.filterMap_eq_nil_iff.mpr fun event hmem => (hnone event hmem).1]
    rfl
  · rw [starts, List.filterMap_eq_nil_iff.mpr fun event hmem => (hnone event hmem).2.1]
    rfl
  · rw [misses, List.filterMap_eq_nil_iff.mpr fun event hmem => (hnone event hmem).2.2]
    rfl

/-! ### What an act tells -/

variable {η φ : Type} {o o' : Oracle η} {now refSlot deadline : Word} {report : Digest}
  {seen told : List Event}

/-- What an act tells of reference slots. -/
inductive Tells (o : Oracle η) : Oracle η → List Event → Prop
  /-- It tells nothing of them, and those held and marked are the same. -/
  | nothing {o' : Oracle η} {told : List Event} (mark : o'.processingSlot = o.processingSlot)
      (slot : o'.report.refSlot = o.report.refSlot)
      (h : ∀ event ∈ told, event.isNotice = false) : Tells o o' told
  | taken {now : Word} {sender : Address} {report : Digest} {refSlot deadline : Word}
      (h : o.Accepts now sender report refSlot deadline) :
      Tells o (o.taking report refSlot deadline)
        (o.passedOver refSlot ++ [.reportSubmitted refSlot report deadline])
  | started {o' : Oracle η} (new : o.report.refSlot ≠ o.processingSlot)
      (mark : o'.processingSlot = o.report.refSlot) (slot : o'.report.refSlot = o.report.refSlot) :
      Tells o o' [.processingStarted o.report.refSlot o.report.report]

theorem Altered.tells {c : Command} (h : o.Altered now c o') :
    ∃ told, o'.events = o.events ++ told ∧ o.Tells o' told := by
  cases h with
  | unmoved _ => exact ⟨[], (List.append_nil _).symm, .nothing rfl rfl nofun⟩
  | taken haccepts => exact ⟨_, taking_events, .taken haccepts⟩
  | withdrawn _ _ _ => exact ⟨_, rfl, .nothing rfl rfl (by simp [Event.isNotice])⟩
  | started _ new => exact ⟨_, rfl, .started new rfl rfl⟩
  | rebound => exact ⟨_, rfl, .nothing rfl rfl (by simp [Event.isNotice])⟩
  | reversioned => exact ⟨_, rfl, .nothing rfl rfl (by simp [Event.isNotice])⟩
  | granted =>
    exact ⟨_, emitIf_events _ _, .nothing (by simp) (by simp) (by simp [Event.isNotice])⟩
  | revoked =>
    exact ⟨_, emitIf_events _ _, .nothing (by simp) (by simp) (by simp [Event.isNotice])⟩

/-- What taking a report tells of a slot handed over before: the slot held is passed over unless it
was processed or is the slot of the report. -/
theorem misses_passedOver (slot : Word) : misses (o.passedOver refSlot) slot =
    if refSlot ≠ o.report.refSlot ∧ o.processingSlot ≠ o.report.refSlot ∧
      slot = o.report.refSlot then 1 else 0 := by
  rw [passedOver]
  by_cases hslot : refSlot = o.report.refSlot
  · simp [hslot, misses]
  by_cases hmark : o.processingSlot = o.report.refSlot
  · simp [hmark, misses]
  · have hcount : misses [.processingMissed o.report.refSlot] slot =
        if slot = o.report.refSlot then 1 else 0 := by
      simp only [misses, Event.missedSlot?, List.filterMap_cons, List.filterMap_nil,
        List.count_singleton, beq_iff_eq, @eq_comm _ slot]
    simp [hslot, hmark, hcount]

theorem submittedSlots_passedOver : submittedSlots (o.passedOver refSlot) = [] := by
  rw [passedOver]
  split <;> rfl

theorem starts_passedOver (slot : Word) : starts (o.passedOver refSlot) slot = 0 := by
  rw [passedOver]
  split <;> rfl

variable [ReportHandler η φ]

/-- The events that an act takes away from those not yet fetched. -/
def fetchedIn (o : Oracle η) : Act η → List Event
  | .drain => o.events
  | _ => []

/-- All that an oracle has told by the end of a run: what is fetched during the run, in its order,
and what is left. -/
def log (o : Oracle η) : List (Word × Act η) → List Event
  | [] => o.events
  | (now, a) :: run => o.fetchedIn a ++ (o.act now a).log run

/-- An act tells nothing of slots but what is listed, and loses nothing told before. -/
theorem tells_act (o : Oracle η) (now : Word) (a : Act η) :
    ∃ told, o.fetchedIn a ++ (o.act now a).events = o.events ++ told ∧
      o.Tells (o.act now a) told := by
  cases a with
  | call c => exact (o.altered now c).tells
  | tend f => exact ⟨[], (List.append_nil _).symm, .nothing rfl rfl nofun⟩
  | drain => exact ⟨[], rfl, .nothing rfl rfl nofun⟩

/-! ### The account -/

/-- The events so far account for every reference slot: for the one held, which nothing has passed
over, and for those handed over before it, each of which was either processed or passed over. -/
structure Accounted (o : Oracle η) (seen : List Event) : Prop where
  ordered : o.processingSlot ≤ o.report.refSlot
  le_held : ∀ slot ∈ submittedSlots seen, slot ≤ o.report.refSlot
  /-- Either nothing was handed over, or the slot held was the last. -/
  last : submittedSlots seen = [] ∧ o.processingSlot = o.report.refSlot ∨
    (submittedSlots seen).getLast? = some o.report.refSlot
  unknown : ∀ slot ∉ submittedSlots seen, starts seen slot = 0 ∧ misses seen slot = 0
  before : ∀ slot ∈ submittedSlots seen, slot ≠ o.report.refSlot →
    starts seen slot + misses seen slot = 1
  held : o.report.refSlot ∈ submittedSlots seen → misses seen o.report.refSlot = 0 ∧
    starts seen o.report.refSlot = if o.processingSlot = o.report.refSlot then 1 else 0

namespace Accounted

omit [ReportHandler η φ]

/-- A slot that is held and not marked was handed over. -/
theorem mem_of_ne (h : o.Accounted seen) (hne : o.processingSlot ≠ o.report.refSlot) :
    o.report.refSlot ∈ submittedSlots seen := by
  obtain ⟨-, heq⟩ | hlast := h.last
  · exact absurd heq hne
  · exact List.mem_of_getLast? hlast

theorem nothing (h : o.Accounted seen) (hmark : o'.processingSlot = o.processingSlot)
    (hslot : o'.report.refSlot = o.report.refSlot)
    (hquiet : ∀ event ∈ told, event.isNotice = false) : o'.Accounted (seen ++ told) := by
  obtain ⟨hsubmitted, hsilent⟩ := silent_of_not_isNotice hquiet
  constructor <;>
    simp only [submittedSlots_append, starts_append, misses_append, hsubmitted, hsilent,
      List.append_nil, Nat.add_zero, hmark, hslot]
  · exact h.ordered
  · exact h.le_held
  · exact h.last
  · exact h.unknown
  · exact h.before
  · exact h.held

theorem started (h : o.Accounted seen) (hnew : o.report.refSlot ≠ o.processingSlot)
    (hmark : o'.processingSlot = o.report.refSlot) (hslot : o'.report.refSlot = o.report.refSlot) :
    o'.Accounted (seen ++ [.processingStarted o.report.refSlot report]) := by
  have hmem := h.mem_of_ne hnew.symm
  constructor <;>
    simp only [submittedSlots_append, starts_append, misses_append, submittedSlots_started,
      starts_started, misses_started, List.append_nil, Nat.add_zero, hmark, hslot]
  · exact UInt64.le_refl _
  · exact h.le_held
  · exact h.last.imp_left fun ⟨_, heq⟩ => absurd heq hnew.symm
  · intro slot hslot
    have hne : slot ≠ o.report.refSlot := fun heq => hslot (heq ▸ hmem)
    rw [if_neg hne]
    exact h.unknown slot hslot
  · intro slot hslot hne
    rw [if_neg hne]
    exact h.before slot hslot hne
  · intro _
    obtain ⟨hmissed, hstarted⟩ := h.held hmem
    rw [hstarted, if_neg hnew.symm]
    exact ⟨hmissed, rfl⟩

theorem taken (h : o.Accounted seen) (hnotBefore : o.report.refSlot ≤ refSlot)
    (hunprocessed : o.processingSlot < refSlot) :
    (o.taking report refSlot deadline).Accounted
      (seen ++ (o.passedOver refSlot ++ [.reportSubmitted refSlot report deadline])) := by
  constructor <;>
    simp only [submittedSlots_append, starts_append, misses_append, submittedSlots_passedOver,
      starts_passedOver, misses_passedOver, submittedSlots_submitted, starts_submitted,
      misses_submitted, List.nil_append, Nat.add_zero, taking_processingSlot, taking_report,
      List.mem_append, List.mem_singleton]
  · exact UInt64.le_of_lt hunprocessed
  · rintro slot (hslot | rfl)
    · exact UInt64.le_trans (h.le_held slot hslot) hnotBefore
    · exact UInt64.le_refl _
  · exact .inr List.getLast?_concat
  · intro slot hslot
    obtain ⟨hold, hne⟩ := not_or.mp hslot
    -- What is passed over was handed over, so it is another slot.
    rw [if_neg fun ⟨_, hmark, heq⟩ => hold (heq ▸ h.mem_of_ne hmark)]
    exact h.unknown slot hold
  · intro slot hslot hne
    have hold := hslot.resolve_right hne
    by_cases hheld : slot = o.report.refSlot
    · -- The slot held before: it was processed, or else it is passed over now.
      subst hheld
      obtain ⟨hmissed, hstarted⟩ := h.held hold
      rw [hstarted, hmissed]
      by_cases hmark : o.processingSlot = o.report.refSlot
      · simp [hmark]
      · simp [hmark, Ne.symm hne]
    · rw [if_neg fun ⟨_, _, heq⟩ => hheld heq]
      exact h.before slot hold hheld
  · intro _
    rw [if_neg fun ⟨hne, _, heq⟩ => hne heq, if_neg (UInt64.ne_of_lt hunprocessed)]
    by_cases hmem : refSlot ∈ submittedSlots seen
    · -- The slot was handed over before, so it is the one held.
      obtain rfl := UInt64.le_antisymm (h.le_held refSlot hmem) hnotBefore
      obtain ⟨hmissed, hstarted⟩ := h.held hmem
      rw [if_neg (UInt64.ne_of_lt hunprocessed)] at hstarted
      exact ⟨hmissed, hstarted⟩
    · obtain ⟨hstarted, hmissed⟩ := h.unknown refSlot hmem
      exact ⟨hmissed, hstarted⟩

/-- Every act keeps the account. -/
theorem act (h : o.Accounted seen) (htells : o.Tells o' told) : o'.Accounted (seen ++ told) := by
  cases htells with
  | nothing mark slot hquiet => exact h.nothing mark slot hquiet
  | taken haccepts => exact h.taken haccepts.notBefore haccepts.unprocessed
  | started new mark slot => exact h.started new mark slot

end Accounted

/-- The account is kept throughout a run. What was fetched before the run stays in it. -/
theorem Accounted.after {past : List Event} (h : o.Accounted (past ++ o.events))
    (run : List (Word × Act η)) : (o.after run).Accounted (past ++ o.log run) := by
  induction run generalizing o past with
  | nil => exact h
  | cons x run ih =>
    obtain ⟨now, a⟩ := x
    obtain ⟨told, hevents, htells⟩ := o.tells_act now a
    rw [log, ← List.append_assoc]
    refine ih ?_
    rw [List.append_assoc, hevents, ← List.append_assoc]
    exact h.act htells

omit [ReportHandler η φ] in
/-- The account of a new oracle: its slot was not handed over, and counts as processed. -/
theorem accounted_of_create {setup : Setup} {handler : η} {new : Oracle η}
    (h : create (φ := φ) setup handler = .ok new) : new.Accounted new.events := by
  have hcreated := created_of_create h
  have hheld : new.processingSlot = new.report.refSlot := by
    rw [hcreated.processingSlot, hcreated.report]
  rw [events_of_create h]
  exact ⟨UInt64.le_of_eq hheld, nofun, .inl ⟨rfl, hheld⟩, fun _ _ => ⟨rfl, rfl⟩, nofun, nofun⟩

/-- In every run of a new oracle, with any calls at any moments and whatever its handler does and
refuses: of each reference slot that was handed over before the last one, the events tell once that
its processing has started or that it was passed over, and not both; the last one is not passed over
and is started once at most; and of a slot that was not handed over they tell neither. -/
theorem slots_accounted {setup : Setup} {handler : η} {new : Oracle η}
    (h : create (φ := φ) setup handler = .ok new) (run : List (Word × Act η)) :
    let log := new.log run
    (∀ slot ∈ submittedSlots log, (submittedSlots log).getLast? ≠ some slot →
        starts log slot + misses log slot = 1) ∧
      (∀ slot, (submittedSlots log).getLast? = some slot →
        misses log slot = 0 ∧ starts log slot ≤ 1) ∧
      ∀ slot ∉ submittedSlots log, starts log slot = 0 ∧ misses log slot = 0 := by
  intro log
  have haccounted : (new.after run).Accounted ([] ++ log) :=
    Accounted.after (accounted_of_create h) run
  rw [List.nil_append] at haccounted
  have hlast {slot : Word} (hmem : slot ∈ submittedSlots log) :
      (submittedSlots log).getLast? = some (new.after run).report.refSlot := by
    obtain ⟨hnone, -⟩ | hlast := haccounted.last
    · rw [hnone] at hmem
      cases hmem
    · exact hlast
  refine ⟨fun slot hmem hearlier => ?_, fun slot hslot => ?_, haccounted.unknown⟩
  · refine haccounted.before slot hmem fun heq => hearlier ?_
    rw [hlast hmem, heq]
  · have hmem := List.mem_of_getLast? hslot
    obtain rfl := Option.some.inj (hslot.symm.trans (hlast hmem))
    obtain ⟨hmissed, hstarted⟩ := haccounted.held hmem
    rw [hstarted]
    exact ⟨hmissed, by split <;> decide⟩

open Guarded in
/-- The first slot is processed, the second one handed over, withdrawn, handed over again and passed
over, and the events are fetched in between; the third one is held. -/
theorem accounted_first_and_second :
    ∃ new, create (φ := GuardedLog.Refusal) setup ({} : GuardedLog) = .ok new ∧
      let log := new.log (beforeStart ++ [(890, .drain), (900, submission 4 95 1300)])
      submittedSlots log = [31, 63, 63, 95] ∧ starts log 31 + misses log 31 = 1 ∧
        starts log 63 + misses log 63 = 1 ∧ (misses log 95 = 0 ∧ starts log 95 ≤ 1) ∧
        (starts log 7 = 0 ∧ misses log 7 = 0) ∧ starts log 31 = 1 ∧ misses log 63 = 1 := by
  let run : List (Word × Act GuardedLog) :=
    beforeStart ++ [(890, .drain), (900, submission 4 95 1300)]
  have hrun : (create (φ := GuardedLog.Refusal) setup ({} : GuardedLog)).toOption.any
      (fun new => decide (submittedSlots (new.log run) = [31, 63, 63, 95] ∧
        starts (new.log run) 31 = 1 ∧ misses (new.log run) 63 = 1)) = true := by
    decide +kernel
  obtain ⟨new, hmade, hslots, hstarted, hmissed⟩ := exists_of_any hrun
  obtain ⟨hbefore, hlast, hunknown⟩ := slots_accounted hmade run
  rw [hslots] at hbefore hlast hunknown
  exact ⟨new, hmade, hslots, hbefore 31 (by decide) (by decide), hbefore 63 (by decide) (by decide),
    hlast 95 rfl, hunknown 7 (by decide), hstarted, hmissed⟩

end ReportQuorum.Oracle
