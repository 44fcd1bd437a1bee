import ReportQuorum.Proofs.OracleLife

/-!
# The order in which an oracle processes reports

An oracle is called by anybody, at moments that need not be in order, and its handler goes its own
way between the calls and may refuse at any of them. Whatever happens, the oracle goes through the
reference slots in order: what it starts to process is the report that was handed over last, if that
has not been withdrawn, and it holds on to it until a report for a later slot is handed over.

## Main definitions

* `Oracle.Act`: what may happen to an oracle
* `Oracle.after`: the oracle after a run, a list of such acts with their moments
* `Oracle.processed`: the reference slots whose processing a run has started
* `Oracle.HandedLast`: the report that a run has handed over last and not withdrawn
* `Oracle.Processes`: how an oracle starts to process the report that it holds

## Main results

* `Oracle.forward_after`: neither the slot held nor the slot marked goes back
* `Oracle.processed_ascending`: no slot is processed twice
* `Oracle.handedLast_or_kept`: where the report that is held comes from
* `Oracle.report_after_of_processing`: a report that is being processed is held on to
* `Oracle.processed_in_order`: all of this for a new oracle
-/

namespace ReportQuorum.Oracle

variable {η φ : Type}

/-- What may happen to an oracle. -/
inductive Act (η : Type) where
  /-- Somebody calls the oracle. -/
  | call (c : Command)
  /-- Something happens to the handler that the oracle knows nothing of. -/
  | tend (f : η → η)
  /-- Somebody fetches the events. -/
  | drain

variable [ReportHandler η φ] {o o' o'' : Oracle η} {now : Word}

/-- The oracle after an act at a moment. -/
def act (o : Oracle η) (now : Word) : Act η → Oracle η
  | .call c => (o.perform now c).state
  | .tend f => { o with handler := f o.handler }
  | .drain => o.drained

/-- The oracle after a run. -/
def after (o : Oracle η) : List (Word × Act η) → Oracle η
  | [] => o
  | (now, a) :: run => (o.act now a).after run

/-- Whether a call is allowed. -/
def allows (o : Oracle η) (now : Word) (c : Command) : Bool := (o.perform now c).result.isOk

/-- The reference slots whose processing an act starts: at most one. -/
def processedIn (o : Oracle η) (now : Word) : Act η → List Word
  | .call .startProcessing =>
    if o.allows now .startProcessing then [(o.act now (.call .startProcessing)).processingSlot]
    else []
  | _ => []

/-- The reference slots whose processing a run has started, in their order. -/
def processed (o : Oracle η) : List (Word × Act η) → List Word
  | [] => []
  | (now, a) :: run => o.processedIn now a ++ (o.act now a).processed run

/-- Every act of a run meets a condition on the oracle before it, the moment and the act. -/
def Throughout (P : Oracle η → Word → Act η → Prop) (o : Oracle η) : List (Word × Act η) → Prop
  | [] => True
  | (now, a) :: run => P o now a ∧ (o.act now a).Throughout P run

@[simp] theorem after_append (o : Oracle η) (run run' : List (Word × Act η)) :
    o.after (run ++ run') = (o.after run).after run' := by
  induction run generalizing o with
  | nil => rfl
  | cons a run ih => exact ih _

/-! ### What an act does -/

theorem allows_submit {sender : Address} {report : Digest} {refSlot deadline : Word}
    (h : o.allows now (.submit sender report refSlot deadline) = true) :
    o.Accepts now sender report refSlot deadline ∧
      o.act now (.call (.submit sender report refSlot deadline)) =
        o.taking report refSlot deadline := by
  rw [allows, perform] at h
  rw [act, perform]
  cases hs : o.submit (φ := φ) now sender report refSlot deadline with
  | mk result o' =>
    rw [hs] at h
    cases result with
    | error err => cases h
    | ok u =>
      obtain ⟨haccepts, rfl⟩ := submit_eq_ok.mp hs
      exact ⟨haccepts, rfl⟩

theorem act_of_not_allows_submit {sender : Address} {report : Digest} {refSlot deadline : Word}
    (h : o.allows now (.submit sender report refSlot deadline) = false) :
    o.act now (.call (.submit sender report refSlot deadline)) = o := by
  rw [allows, perform] at h
  rw [act, perform]
  cases hs : o.submit (φ := φ) now sender report refSlot deadline with
  | mk result o' =>
    rw [hs] at h
    cases result with
    | error err => exact submit_refused hs
    | ok u => cases h

/-- A withdrawal that is allowed for the slot held leaves no report. -/
theorem report_of_allows_discard {sender : Address}
    (h : o.allows now (.discard sender o.report.refSlot) = true) :
    (o.act now (.call (.discard sender o.report.refSlot))).report.report = Octets.zero := by
  have hd := o.discarded (φ := φ) sender o.report.refSlot
  rw [allows, perform] at h
  rw [act, perform]
  generalize o.discard (φ := φ) sender o.report.refSlot = r at h hd
  cases hd with
  | refused _ _ => cases h
  | nothing hnothing =>
    obtain hcoming | hnone := hnothing
    · exact absurd hcoming (UInt64.lt_irrefl _)
    · exact held_eq_none.mp hnone
  | handlerRefused _ => cases h
  | withdrawn _ _ _ _ => rfl

/-- An oracle starts to process the report that it holds. -/
structure Processes (o o' : Oracle η) : Prop where
  pending : o.report.report ≠ Octets.zero
  handled : ReportHandler.handle o.handler o.report o.processingSlot = ⟨.ok (), o'.handler⟩
  marked : o'.processingSlot = o.report.refSlot
  kept : o'.report = o.report
  told : o'.events = o.events ++ [.processingStarted o.report.refSlot o.report.report]

theorem processes_of_allows (h : o.allows now .startProcessing = true) :
    o.Processes (o.act now (.call .startProcessing)) ∧ o.report.refSlot ≠ o.processingSlot := by
  have hs := o.started (φ := φ) now
  rw [allows, perform] at h
  rw [act, perform]
  generalize o.startProcessing (φ := φ) now = r at h hs
  cases hs with
  | refused _ => cases h
  | handlerRefused _ => cases h
  | started pending new _ hh => exact ⟨⟨pending, hh, rfl, rfl, rfl⟩, new⟩

/-! ### Nothing goes back -/

/-- The slot marked and the slot held have not gone back, and the one has not overtaken the other. -/
structure Forward (o o' : Oracle η) : Prop where
  processingSlot : o.processingSlot ≤ o'.processingSlot
  refSlot : o.report.refSlot ≤ o'.report.refSlot
  ordered : o'.processingSlot ≤ o'.report.refSlot

theorem Forward.trans (h : o.Forward o') (h' : o'.Forward o'') : o.Forward o'' where
  processingSlot := UInt64.le_trans h.processingSlot h'.processingSlot
  refSlot := UInt64.le_trans h.refSlot h'.refSlot
  ordered := h'.ordered

theorem Performed.forward {c : Command} (h : o.Performed now c o')
    (hle : o.processingSlot ≤ o.report.refSlot) : o.Forward o' := by
  refine ⟨?_, ?_, h.processingSlot_le hle⟩
  · cases h with
    | unmoved h _ => exact UInt64.le_of_eq h.processingSlot.symm
    | taken _ => simp
    | withdrawn _ _ => exact UInt64.le_refl _
    | started _ => exact hle
  · cases h with
    | unmoved h _ => exact UInt64.le_of_eq (congrArg Report.refSlot h.report).symm
    | taken haccepts =>
      rw [taking_report]
      exact haccepts.notBefore
    | withdrawn _ _ => exact UInt64.le_refl _
    | started _ => exact UInt64.le_refl _

theorem forward_act (hle : o.processingSlot ≤ o.report.refSlot) (now : Word) (a : Act η) :
    o.Forward (o.act now a) := by
  cases a with
  | call c => exact (o.performed now c).forward hle
  | tend f => exact ⟨UInt64.le_refl _, UInt64.le_refl _, hle⟩
  | drain => exact ⟨UInt64.le_refl _, UInt64.le_refl _, hle⟩

/-- In no run do the slots go back. -/
theorem forward_after (hle : o.processingSlot ≤ o.report.refSlot) (run : List (Word × Act η)) :
    o.Forward (o.after run) := by
  induction run generalizing o with
  | nil => exact ⟨UInt64.le_refl _, UInt64.le_refl _, hle⟩
  | cons x run ih =>
    have hfirst := forward_act hle x.1 x.2
    exact hfirst.trans (ih hfirst.ordered)

/-! ### The slots processed -/

/-- An act that starts to process a slot marks it, and it is later than the one marked before. -/
theorem processedIn_cases (hle : o.processingSlot ≤ o.report.refSlot) (now : Word) (a : Act η) :
    o.processedIn now a = [] ∨
      o.processedIn now a = [(o.act now a).processingSlot] ∧
        o.processingSlot < (o.act now a).processingSlot := by
  unfold processedIn
  split
  next =>
    split
    next hallows =>
      obtain ⟨hprocesses, hnew⟩ := processes_of_allows hallows
      refine .inr ⟨rfl, ?_⟩
      rw [hprocesses.marked]
      exact UInt64.lt_of_le_of_ne hle (Ne.symm hnew)
    next => exact .inl rfl
  next => exact .inl rfl

/-- The slots that a run processes ascend, beginning after the slot that was marked before it. -/
theorem processed_ascending (hle : o.processingSlot ≤ o.report.refSlot)
    (run : List (Word × Act η)) :
    (o.processed run).Pairwise (· < ·) ∧ ∀ slot ∈ o.processed run, o.processingSlot < slot := by
  induction run generalizing o with
  | nil => exact ⟨.nil, nofun⟩
  | cons x run ih =>
    have hfirst := forward_act hle x.1 x.2
    obtain ⟨hascending, hlater⟩ := ih hfirst.ordered
    rw [processed]
    obtain hnone | ⟨hone, hnew⟩ := processedIn_cases hle x.1 x.2
    · rw [hnone]
      exact ⟨hascending, fun slot hslot =>
        UInt64.lt_of_le_of_lt hfirst.processingSlot (hlater slot hslot)⟩
    · -- The slots processed later are later than the one marked now.
      rw [hone]
      refine ⟨List.pairwise_cons.mpr ⟨hlater, hascending⟩, fun slot hslot => ?_⟩
      obtain rfl | hslot := List.mem_cons.mp hslot
      · exact hnew
      · exact UInt64.lt_trans hnew (hlater slot hslot)

/-! ### Where a report comes from -/

/-- An act by which no report is handed over and none is withdrawn for a reference slot. -/
def Undisturbed (refSlot : Word) (o : Oracle η) (now : Word) : Act η → Prop
  | .call (.submit sender report slot deadline) =>
    o.allows now (.submit sender report slot deadline) = false
  | .call (.discard sender slot) =>
    slot = refSlot → o.allows now (.discard sender slot) = false
  | _ => True

/-- A report is the one that a run has handed over last, and it has not been withdrawn since. -/
def HandedLast (o : Oracle η) (run : List (Word × Act η)) (r : Report) : Prop :=
  ∃ before now sender rest,
    let submission := Command.submit sender r.report r.refSlot r.deadline
    run = before ++ (now, .call submission) :: rest ∧
      (o.after before).allows now submission = true ∧
      ((o.after before).act now (.call submission)).Throughout (Undisturbed r.refSlot) rest

theorem HandedLast.cons {r : Report} {run : List (Word × Act η)} {a : Act η}
    (h : (o.act now a).HandedLast run r) : o.HandedLast ((now, a) :: run) r := by
  obtain ⟨before, time, sender, rest, rfl, hallows, hrest⟩ := h
  exact ⟨(now, a) :: before, time, sender, rest, rfl, hallows, hrest⟩

/-- A call that hands nothing over leaves the report held, or withdraws it before it is processed. -/
theorem Performed.report {c : Command} (h : o.Performed now c o')
    (hc : ∀ sender report refSlot deadline, c ≠ .submit sender report refSlot deadline) :
    o'.report = o.report ∨ o.processingSlot < o.report.refSlot ∧ o'.report.report = Octets.zero := by
  cases h with
  | unmoved h _ => exact .inl h.report
  | taken _ => exact absurd rfl (hc _ _ _ _)
  | withdrawn _ unprocessed => exact .inr ⟨unprocessed, rfl⟩
  | started _ => exact .inl rfl

/-- An act hands over the report held after it, or leaves the one held before it, or leaves none. -/
theorem report_act (o : Oracle η) (now : Word) (a : Act η) :
    (∃ sender report refSlot deadline, a = .call (.submit sender report refSlot deadline) ∧
        o.allows now (.submit sender report refSlot deadline) = true ∧
        (o.act now a).report = ⟨report, refSlot, deadline⟩) ∨
      o.Undisturbed o.report.refSlot now a ∧ (o.act now a).report = o.report ∨
      (o.act now a).report.report = Octets.zero := by
  cases a with
  | tend f => exact .inr (.inl ⟨trivial, rfl⟩)
  | drain => exact .inr (.inl ⟨trivial, rfl⟩)
  | call c =>
    have hreport := (o.performed now c).report
    cases c with
    | submit sender report refSlot deadline =>
      cases hallows : o.allows now (.submit sender report refSlot deadline) with
      | false =>
        exact .inr (.inl ⟨hallows, congrArg Oracle.report (act_of_not_allows_submit hallows)⟩)
      | true =>
        refine .inl ⟨sender, report, refSlot, deadline, rfl, hallows, ?_⟩
        rw [(allows_submit hallows).2, taking_report]
    | discard sender refSlot =>
      obtain hkept | ⟨-, hzero⟩ := hreport nofun
      · -- A withdrawal that is allowed and changes nothing has found nothing.
        cases hallows : o.allows now (.discard sender refSlot) with
        | false => exact .inr (.inl ⟨fun _ => hallows, hkept⟩)
        | true =>
          by_cases hslot : refSlot = o.report.refSlot
          · subst hslot
            exact .inr (.inr (report_of_allows_discard hallows))
          · exact .inr (.inl ⟨fun h => absurd h hslot, hkept⟩)
      · exact .inr (.inr hzero)
    | _ =>
      obtain hkept | ⟨-, hzero⟩ := hreport nofun
      · exact .inr (.inl ⟨trivial, hkept⟩)
      · exact .inr (.inr hzero)

/-- A report that is held after a run was handed over in it, or was held before it. -/
theorem handedLast_or_kept (run : List (Word × Act η))
    (hpending : (o.after run).report.report ≠ Octets.zero) :
    o.HandedLast run (o.after run).report ∨
      (o.after run).report = o.report ∧ o.Throughout (Undisturbed o.report.refSlot) run := by
  induction run generalizing o with
  | nil => exact .inr ⟨rfl, trivial⟩
  | cons x run ih =>
    obtain ⟨now, a⟩ := x
    obtain hlater | ⟨hkept, hrest⟩ := ih hpending
    · exact .inl hlater.cons
    -- The rest of the run leaves what the first act has left.
    rw [after] at hpending ⊢
    rw [hkept] at hpending ⊢
    obtain ⟨sender, report, refSlot, deadline, rfl, hallows, hreport⟩ | ⟨hundisturbed, hreport⟩ |
      hzero := o.report_act now a
    · rw [hreport] at hrest ⊢
      exact .inl ⟨[], now, sender, run, rfl, hallows, hrest⟩
    · rw [hreport] at hrest ⊢
      exact .inr ⟨rfl, hundisturbed, hrest⟩
    · exact absurd hzero hpending

/-! ### Reports that are being processed -/

/-- An act by which no report is handed over for a later reference slot. -/
def NoLater (refSlot : Word) (o : Oracle η) (now : Word) : Act η → Prop
  | .call (.submit sender report slot deadline) =>
    refSlot < slot → o.allows now (.submit sender report slot deadline) = false
  | _ => True

/-- A report that is being processed is held on to. -/
theorem report_act_of_processing (hprocessing : o.processingSlot = o.report.refSlot) {a : Act η}
    (ha : o.NoLater o.report.refSlot now a) :
    (o.act now a).report = o.report ∧ (o.act now a).processingSlot = o.processingSlot := by
  cases a with
  | tend f => exact ⟨rfl, rfl⟩
  | drain => exact ⟨rfl, rfl⟩
  | call c =>
    have hp := o.performed now c
    change o.Performed now c (o.act now (.call c)) at hp
    generalize hact : o.act now (.call c) = o' at hp
    cases hp with
    | unmoved h _ => exact ⟨h.report, h.processingSlot⟩
    | @taken sender report refSlot deadline haccepts =>
      -- What is taken is for a later slot, so it was not allowed.
      have hlater : o.report.refSlot < refSlot := hprocessing ▸ haccepts.unprocessed
      rw [act_of_not_allows_submit (ha hlater)] at hact
      exact ⟨congrArg Oracle.report hact.symm, congrArg Oracle.processingSlot hact.symm⟩
    | withdrawn _ unprocessed =>
      rw [hprocessing] at unprocessed
      exact absurd unprocessed (UInt64.lt_irrefl _)
    | started _ => exact ⟨rfl, hprocessing.symm⟩

/-- A report that is being processed is held until one for a later slot is handed over. -/
theorem report_after_of_processing (hprocessing : o.processingSlot = o.report.refSlot)
    {run : List (Word × Act η)} (hrun : o.Throughout (NoLater o.report.refSlot) run) :
    (o.after run).report = o.report := by
  induction run generalizing o with
  | nil => rfl
  | cons x run ih =>
    obtain ⟨hreport, hslot⟩ := report_act_of_processing hprocessing hrun.1
    have hrest := hrun.2
    rw [← hreport] at hrest
    rw [after, ih (by rw [hslot, hreport, hprocessing]) hrest, hreport]

/-! ### New oracles -/

/-- In every run of a new oracle, with any calls at any moments and whatever its handler does and
refuses: neither the slot marked nor the slot held goes back, and the former is not after the latter;
the slots processed ascend, beginning after the slot that the oracle was made with; each start
processes the report, not the zero digest, that was handed over last and has not been withdrawn since;
and from then on that report is held until one for a later slot is handed over. -/
theorem processed_in_order {setup : Setup} {handler : η} {new : Oracle η}
    (h : create (φ := φ) setup handler = .ok new) (run : List (Word × Act η)) :
    (∀ before rest, run = before ++ rest →
      (new.after before).processingSlot ≤ (new.after run).processingSlot ∧
        (new.after before).report.refSlot ≤ (new.after run).report.refSlot ∧
        (new.after before).processingSlot ≤ (new.after before).report.refSlot) ∧
    ((new.processed run).Pairwise (· < ·) ∧
      ∀ slot ∈ new.processed run, setup.processingSlot < slot) ∧
    ∀ before now rest, run = before ++ (now, .call .startProcessing) :: rest →
      let o := new.after before
      let o' := o.act now (.call .startProcessing)
      o.allows now .startProcessing = true →
        (o.Processes o' ∧ new.HandedLast before o.report) ∧
        ∀ next later, rest = next ++ later → o'.Throughout (NoLater o.report.refSlot) next →
          (o'.after next).report = o.report := by
  have hcreated := created_of_create h
  have hle : new.processingSlot ≤ new.report.refSlot := by
    rw [hcreated.processingSlot, hcreated.report]
    exact UInt64.le_refl _
  refine ⟨?_, ?_, ?_⟩
  · rintro before rest rfl
    have hbefore := forward_after hle before
    have hrest := forward_after hbefore.ordered rest
    rw [after_append]
    exact ⟨hrest.processingSlot, hrest.refSlot, hbefore.ordered⟩
  · obtain ⟨hascending, hlater⟩ := processed_ascending hle run
    rw [hcreated.processingSlot] at hlater
    exact ⟨hascending, hlater⟩
  · intro before now rest hrun o o' hallows
    obtain ⟨hprocesses, -⟩ := processes_of_allows hallows
    refine ⟨⟨hprocesses, ?_⟩, fun next later hnext hquiet => ?_⟩
    · -- A new oracle holds no report, so the report was handed over since.
      obtain hhanded | ⟨hkept, -⟩ := handedLast_or_kept before hprocesses.pending
      · exact hhanded
      · refine absurd ?_ hprocesses.pending
        change (new.after before).report.report = Octets.zero
        rw [hkept, hcreated.report]
    · have hprocessing : o'.processingSlot = o'.report.refSlot := by
        rw [hprocesses.marked, hprocesses.kept]
      rw [← hprocesses.kept] at hquiet ⊢
      exact report_after_of_processing hprocessing hquiet

/-! ### An oracle with a guarded log -/

namespace Guarded

/-- The engine that the oracle is bound to. -/
def engine : Address := .ofLowByte 12

def setup : Setup := ⟨.ofLowByte 10, engine, ⟨32, 12, 100⟩, 1, 7, .ofLowByte 9⟩

/-- The engine hands over the report of one octet, repeated. -/
def submission (octet : UInt8) (refSlot deadline : Word) : Act GuardedLog :=
  .call (.submit engine (Octets.replicate 32 octet) refSlot deadline)

/-- A start is refused by the guard and made later, at an earlier moment; another report is handed
over, withdrawn, and replaced by a third one. -/
def beforeStart : List (Word × Act GuardedLog) :=
  [(484, submission 1 31 856), (490, .tend ({ · with refusesHandle := true })),
    (490, .call .startProcessing), (490, .tend ({ · with refusesHandle := false })),
    (400, .call .startProcessing), (860, submission 2 63 1240), (870, .call (.discard engine 63)),
    (880, submission 3 63 1240)]

end Guarded

open Guarded in
/-- The first and the third report are processed. -/
theorem processed_first_and_third :
    ∃ new, create (φ := GuardedLog.Refusal) setup ({} : GuardedLog) = .ok new ∧
      new.processed (beforeStart ++ [(890, .call .startProcessing)]) = [31, 63] ∧
      List.Pairwise (· < ·) [(31 : Word), 63] ∧
      let o := new.after beforeStart
      o.report = ⟨Octets.replicate 32 3, 63, 1240⟩ ∧ o.processingSlot = 31 ∧
        o.Processes (o.act 890 (.call .startProcessing)) ∧ new.HandedLast beforeStart o.report := by
  let run := beforeStart ++ [(890, .call .startProcessing)]
  have hrun : (create (φ := GuardedLog.Refusal) setup ({} : GuardedLog)).toOption.any
      (fun new => decide (new.processed run = [31, 63] ∧
        (new.after beforeStart).report = ⟨Octets.replicate 32 3, 63, 1240⟩ ∧
        (new.after beforeStart).processingSlot = 31 ∧
        (new.after beforeStart).allows 890 .startProcessing = true)) = true := by
    decide +kernel
  obtain ⟨new, hmade, hprocessed, hreport, hmarked, hallows⟩ := exists_of_any hrun
  obtain ⟨-, ⟨hascending, -⟩, hstarts⟩ := processed_in_order hmade run
  rw [hprocessed] at hascending
  obtain ⟨⟨hprocesses, hhanded⟩, -⟩ := hstarts beforeStart 890 [] rfl hallows
  exact ⟨new, hmade, hprocessed, hascending, hreport, hmarked, hprocesses, hhanded⟩

end ReportQuorum.Oracle
