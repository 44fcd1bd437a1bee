import ReportQuorum.Proofs.Reopening

/-!
# Replacing an oracle that has started

Once an oracle has started to process a reference slot, no report for that slot or an earlier one is
to be handed over any more. The mark that says so is the oracle's, and another oracle need not have
it: the engine looks at the old mark when it replaces the oracle, but not when it settles the votes
again. So the slot may be processed twice, unless only oracles follow that are done with it.

## Main definitions

* `Engine.SuccessorDone`: an oracle that takes the place of another is done with a slot
* `Engine.NotAgain`: nothing happens again for a slot or an earlier one

## Main results

* `Engine.Barred.act`: what is done with stays done with, whatever happens
* `Engine.processed_once`: nothing happens again for a slot exactly if it is done with
-/

namespace ReportQuorum.Engine

open ReportHandler (Willing willing_reportLog)

variable {η φ : Type} [ReportHandler η φ] {e : Engine (Oracle η)} {now now' since r : Word}
  {a : Act (Oracle η)} {run : List (Word × Act (Oracle η))}

/-- If an act replaces the oracle, the new one is done with a slot. -/
def SuccessorDone (r : Word) (e : Engine (Oracle η)) (now : Word) (a : Act (Oracle η)) : Prop :=
  ∀ caller o, a = .call (.setReportProcessor caller o) →
    e.accepts now (.setReportProcessor caller o) = true → e.Done now r o

/-- An act does not hand over a report for a slot or an earlier one, and the oracle cannot start to
process the slot. -/
structure NotAgain (r : Word) (e : Engine (Oracle η)) (now : Word) (a : Act (Oracle η)) : Prop where
  told : ∀ c refSlot report deadline, a = .call c →
    .reportSubmitted refSlot report deadline ∈ e.told now c → r < refSlot
  started : ∀ previous, (e.processor.startProcessing now).result = .ok previous →
    e.processor.report.refSlot ≠ r

/-- The oracle works for the engine and is done with a slot. -/
structure Barred (e : Engine (Oracle η)) (now r : Word) : Prop where
  bound : e.Bound e.processor
  done : e.Done now r e.processor

/-! ### One act -/

theorem bound_incumbent (h : e.Bound e.processor) {c : Command (Oracle η)}
    (hc : ∀ caller o, c = .setReportProcessor caller o → e.Suits o) :
    e.Bound (e.incumbent now c) := by
  cases c with
  | setReportProcessor caller o =>
    rw [incumbent]
    split
    · exact (hc caller o rfl).bound
    · exact h
  | _ =>
    rw [incumbent_eq rfl]
    exact h

theorem done_incumbent (h : e.Done now r e.processor) {c : Command (Oracle η)}
    (hc : e.SuccessorDone r now (.call c)) : e.Done now r (e.incumbent now c) := by
  cases c with
  | setReportProcessor caller o =>
    rw [incumbent]
    split
    next haccepts => exact hc caller o rfl haccepts
    next => exact h
  | _ =>
    rw [incumbent_eq rfl]
    exact h

/-- Whatever properly happens, the oracle works for the engine. -/
theorem bound_act (e : Engine (Oracle η)) (now : Word) (a : Act (Oracle η))
    (h : e.Bound e.processor) (ha : e.Proper now a) :
    (e.act now a).Bound (e.act now a).processor := by
  cases ha with
  | @call c hc =>
    have hincumbent : e.Bound (e.incumbent now c) := bound_incumbent h hc
    exact hincumbent.of_served (e.served_perform now c) (e.performed now c).address
      (e.performed now c).grid
  | tend htended => exact (h.of_marks htended.marks).congr rfl rfl
  | drain => exact h.congr rfl rfl

namespace Barred

theorem mono (h : e.Barred now r) (hnow : now ≤ now') : e.Barred now' r :=
  ⟨h.bound, h.done.mono hnow⟩

/-- Whatever happens to an engine whose oracle is done with a slot, the slot stays done with. -/
theorem act (h : e.Barred now r) (ha : e.Proper now a) (hdone : e.SuccessorDone r now a) :
    (e.act now a).Barred now r := by
  refine ⟨bound_act e now a h.bound ha, ?_⟩
  cases ha with
  | @call c hc =>
    -- A new oracle is done with the slot by assumption, and the call serves it like the old one.
    have hincumbent := done_incumbent h.done hdone
    exact hincumbent.of_served (fun hpast => hpast.performed (e.performed now c))
      (e.served_perform now c)
  | tend htended =>
    have hdone := h.done.of_marks h.bound htended.marks
    exact hdone
  | drain => exact h.done

theorem notAgain (h : e.Barred now r) (hdone : e.SuccessorDone r now a) : e.NotAgain r now a := by
  refine ⟨?_, fun previous hstart => h.done.ne_of_started h.bound hstart⟩
  rintro c refSlot report deadline rfl hmem
  obtain ⟨hcurrent, hmark⟩ := submitted_of_told hmem
  exact (done_incumbent h.done hdone).lt_of_current
    (fun hpast => hpast.performed (e.performed now c)) hcurrent hmark

/-! ### Whole runs -/

theorem after (h : e.Barred since r) (hrun : e.Orderly since run)
    (hdone : e.Throughout (SuccessorDone r) run) :
    e.Throughout (NotAgain r) run ∧ ∀ now, (∀ t ∈ since :: run.map (·.1), t ≤ now) →
      (e.after run).Barred now r := by
  -- The engine after an act is barred again, at the moment of the act.
  induction run generalizing e since with
  | nil => exact ⟨trivial, fun now hnow => h.mono (hnow since (by simp))⟩
  | cons a run ih =>
    obtain ⟨now, a⟩ := a
    obtain ⟨hsince, ha, hrest⟩ := orderly_cons.mp hrun
    have hnow := h.mono hsince
    obtain ⟨hagain, hafter⟩ := ih (hnow.act ha hdone.1) hrest hdone.2
    refine ⟨⟨hnow.notAgain hdone.1, hagain⟩, fun now' hnow' => hafter now' fun t ht => ?_⟩
    exact hnow' t (by simpa using .inr (by simpa using ht))

end Barred

/-- Where the quorum may be moved in an open frame and a slot is not done with, something can happen
for the slot again, though the oracle is not replaced once more. -/
theorem exists_again {cs : List (Command (Oracle η))} {caller : Address} {f : Frame}
    (hfaithful : e.Faithful cs) (hbound : e.Bound e.processor)
    (hsize : e.roster.size < UInt64.size - 1) (hwilling : Willing η)
    (hcan : e.CanReopen now caller f) (hdone : ¬ e.Done now r e.processor) :
    ∃ more, e.Orderly now more ∧ e.Throughout (SuccessorDone r) more ∧
      ¬ e.Throughout (NotAgain r) more := by
  obtain ⟨hmark, hpending⟩ := not_or.mp hdone
  by_cases hspent : Spent e.processor now r
  · -- The frames have not passed the slot, so the engine hands over a report for one not after it.
    have hslot : ¬ r < f.refSlot := fun hlt =>
      hpending ⟨⟨f, hcan.isOpen.current, hlt⟩, hspent⟩
    obtain ⟨report, deadline, hmem⟩ :=
      submitted_of_canReopen hfaithful hbound hsize hwilling hcan
    refine ⟨[(now, .call (.setQuorum caller Quorum.unreachable)),
      (now, .call (.setQuorum caller e.quorum))], ⟨?_, ?_⟩, ?_, ?_⟩
    · simp
    · exact ⟨.call nofun, .call nofun, trivial⟩
    · exact ⟨nofun, nofun, trivial⟩
    · rintro ⟨-, hsecond, -⟩
      exact hslot (hsecond.told _ _ _ _ rfl hmem)
  · -- The oracle still holds something for the slot.
    obtain ⟨d, hd⟩ := Classical.not_forall.mp hspent
    obtain ⟨hheld, hlate⟩ := Classical.not_imp.mp hd
    refine ⟨[(now, .drain)], ⟨?_, .drain, trivial⟩, ⟨nofun, trivial⟩, ?_⟩
    · simp
    · rintro ⟨hfirst, -⟩
      have hstart := Oracle.started_of_held (φ := φ) hwilling hheld (UInt64.not_le.mp hmark)
        (UInt64.not_lt.mp hlate)
      exact hfirst.started _ hstart (Oracle.held_eq_some.mp hheld).1

/-! ### After a start -/

/-- The oracle is asked to start to process what it holds. -/
def starting (now : Word) : Act (Oracle η) := .tend fun o => (o.startProcessing now).state

/-- Right after an oracle has started to process a slot, the slot is done with. -/
theorem barred_of_started (hbound : e.Bound e.processor) {previous : Word}
    (hstart : (e.processor.startProcessing (φ := φ) now).result = .ok previous) :
    (e.act now (starting now)).Barred now e.processor.report.refSlot := by
  have hstarted := e.processor.started (φ := φ) now
  change { e with processor := (e.processor.startProcessing (φ := φ) now).state }.Barred now
    e.processor.report.refSlot
  cases hr : e.processor.startProcessing (φ := φ) now with
  | mk result o =>
    rw [hr] at hstarted hstart
    dsimp only at hstart
    subst hstart
    cases hstarted with
    | started _ _ _ _ =>
      exact ⟨⟨hbound.engine, hbound.grid, UInt64.le_refl _⟩, .inl (UInt64.le_refl _)⟩

/-- After an oracle has started to process a slot in an orderly run, nothing happens again for the
slot as long as every oracle that takes the place of another is done with it. At any later moment at
which the quorum may still be moved in an open frame, being done with the slot is also what it
takes: otherwise something can happen for it again. -/
theorem processed_once {setup : Setup} {o₀ : Oracle η} {e₀ : Engine (Oracle η)}
    (h : create setup o₀ = .ok e₀) (ho : e₀.Suits o₀) {before rest : List (Word × Act (Oracle η))}
    {previous : Word} (hrun : e₀.Orderly since (before ++ (now, starting now) :: rest))
    (hstart : ((e₀.after before).processor.startProcessing now).result = .ok previous) :
    let r := (e₀.after before).processor.report.refSlot
    let e := (e₀.after before).act now (starting now)
    (e.Throughout (SuccessorDone r) rest → e.Throughout (NotAgain r) rest) ∧
      ∀ now' caller f, (e.after rest).CanReopen now' caller f →
        (e.after rest).roster.size < UInt64.size - 1 → Willing η →
        ((e.after rest).Done now' r (e.after rest).processor ↔
          ∀ more, (e.after rest).Orderly now' more →
            (e.after rest).Throughout (SuccessorDone r) more →
            (e.after rest).Throughout (NotAgain r) more) := by
  intro r e
  have hprocessor : e₀.processor = o₀ := (created_of_create h).processor
  have hbound₀ : e₀.Bound e₀.processor := by
    rw [hprocessor]
    exact ho.bound
  obtain ⟨hbefore, -, hrest⟩ := throughout_append.mp hrun.proper
  have hbound : (e₀.after before).Bound (e₀.after before).processor :=
    hbefore.keep bound_act hbound₀
  have hbarred : e.Barred now r := barred_of_started hbound hstart
  have hlater : e.Orderly now rest := by
    refine ⟨hrun.clock.sublist ?_, hrest⟩
    rw [List.map_append, List.map_cons]
    exact (List.sublist_append_right _ _).cons since
  refine ⟨fun hdone => (hbarred.after hlater hdone).1, ?_⟩
  intro now' caller f hcan hsize hwilling
  have hbound' : (e.after rest).Bound (e.after rest).processor := hrest.keep bound_act hbarred.bound
  have hfaithful :
      (e.after rest).Faithful (e₀.accepted (before ++ (now, starting now) :: rest)) := by
    have hall := (faithful_of_create h).after (before ++ (now, starting now) :: rest)
    rw [after_append] at hall
    exact hall
  constructor
  · intro hdone more hmore hsuccessor
    have hbarred' : (e.after rest).Barred now' r := ⟨hbound', hdone⟩
    exact (hbarred'.after hmore hsuccessor).1
  · intro hagain
    refine Classical.byContradiction fun hdone => ?_
    obtain ⟨more, hmore, hsuccessor, hnot⟩ :=
      exists_again hfaithful hbound' hsize hwilling hcan hdone
    exact hnot (hagain more hmore hsuccessor)

/-! ### A committee of one -/

namespace Single

/-- The holder of all roles. -/
def admin : Address := .ofLowByte 9

def grid : TimeGrid := ⟨32, 12, 100⟩

def setup : Setup := ⟨.ofLowByte 8, grid, 1, 0, admin⟩

/-- A new oracle with a mark, whose events have been fetched. -/
def oracle (address : UInt8) (mark : Word) : Oracle ReportLog :=
  { address := .ofLowByte address, engine := .ofLowByte 8, grid, version := 1
    processingSlot := mark, report := ⟨Octets.zero, mark, 0⟩, roles := .ofAdmin admin
    handler := {}, events := [] }

/-- The new engine with its first oracle. -/
def engine : Engine (Oracle ReportLog) :=
  { address := .ofLowByte 8, schedule := ⟨grid, ⟨grid.farFutureEpoch, 1, 0⟩⟩, roster := {}
    quorum := 0, tally := {}, roles := .ofAdmin admin, processor := oracle 6 0
    events := [frameConfigEvent ⟨grid, ⟨grid.farFutureEpoch, 1, 0⟩⟩,
      .reportProcessorSet (.ofLowByte 6) Octets.zero] }

/-- The report of one octet, repeated. -/
def reportOf (octet : UInt8) : Digest := Octets.replicate 32 octet

/-- The only member votes. -/
def vote (refSlot : Word) (octet : UInt8) : Command (Oracle ReportLog) :=
  .submitReport (.ofLowByte 1) ⟨refSlot, reportOf octet⟩ 1

/-- The committee is made, and its only member votes. -/
def before : List (Word × Act (Oracle ReportLog)) :=
  [.grantRole admin .manageMembersAndQuorum admin, .grantRole admin .disableConsensus admin,
    .grantRole admin .manageReportProcessor admin, .addMember admin (.ofLowByte 1) 1,
    .updateInitialEpoch admin 1, vote 31 1].map fun c => (484, .call c)

/-- After the oracle has started, another one with a mark takes its place, and the member votes once
more. -/
def replaced (mark now refSlot : Word) : List (Word × Act (Oracle ReportLog)) :=
  [(484, .call (.setReportProcessor admin (oracle 7 mark))), (now, .call (vote refSlot 2))]

theorem create_engine : create setup (oracle 6 0) = .ok engine := rfl

theorem arises_oracle {address : UInt8} {mark : Word}
    (haddress : Address.ofLowByte address ≠ Octets.zero) : (oracle address mark).Arises := by
  have hengine : Address.ofLowByte 8 ≠ Octets.zero := by decide
  have hadmin : admin ≠ Octets.zero := by decide
  have hmade : Oracle.create (φ := Empty)
      ⟨.ofLowByte address, .ofLowByte 8, grid, 1, mark, admin⟩ ({} : ReportLog) =
      .ok { oracle address mark with
        events :=
          [.consensusContractSet (.ofLowByte 8) Octets.zero, .consensusVersionSet 1 0] } := by
    rw [Oracle.create, if_neg (by simp [haddress, hengine, hadmin])]
    rfl
  exact (Oracle.Arises.created hmade).drained

theorem suits_first : engine.Suits (oracle 6 0) :=
  ⟨arises_oracle (by decide), rfl, rfl⟩

/-- A call to start comes in time for the slot 31. -/
theorem started {o : Oracle ReportLog} {octet : UInt8} (hmark : o.processingSlot = 0)
    (hheld : o.held = some ⟨31, reportOf octet⟩)
    (htimely : o.grid.slotAt 484 ≤ o.grid.slotAt o.report.deadline) :
    (o.startProcessing 484).result = .ok 0 := by
  have hnew : o.processingSlot < 31 := by
    rw [hmark]
    decide
  rw [Oracle.started_of_held willing_reportLog hheld hnew htimely, hmark]

theorem started_first : ((engine.after before).processor.startProcessing 484).result = .ok 0 := by
  have hheld : (engine.after before).processor.held = some ⟨31, reportOf 1⟩ := by decide +kernel
  exact started (by decide +kernel) hheld (by decide +kernel)

theorem proper_before : engine.Throughout Proper before :=
  ⟨.of_not_replaces rfl, .of_not_replaces rfl, .of_not_replaces rfl, .of_not_replaces rfl,
    .of_not_replaces rfl, .of_not_replaces rfl, trivial⟩

theorem orderly_replaced {mark now : Word} (hnow : 484 ≤ now) (refSlot : Word) :
    engine.Orderly 0 (before ++ (484, starting 484) :: replaced mark now refSlot) := by
  have haddress : ((engine.after before).act 484 (starting 484)).address = .ofLowByte 8 := by
    decide +kernel
  have hgrid : ((engine.after before).act 484 (starting 484)).schedule.grid = grid := by
    decide +kernel
  refine ⟨?_, throughout_append.mpr ⟨proper_before, ?_, ?_, ?_, trivial⟩⟩
  · simp [before, replaced, hnow]
  · exact .tend (.performed .startProcessing rfl)
  · refine .call ?_
    rintro _ _ ⟨⟩
    exact ⟨arises_oracle (by decide), haddress.symm, hgrid.symm⟩
  · exact .of_not_replaces rfl

/-- Once a vote for the next slot has come, the quorum may be moved while its frame is open. -/
theorem canReopen_next :
    (((engine.after before).act 484 (starting 484)).after (replaced 31 868 63)).CanReopen 868 admin
      ⟨1, 63, 95⟩ where
  isOpen :=
    { current := Schedule.frameAt_eq_ok.mpr ⟨by decide +kernel, by decide +kernel⟩
      timely := by decide +kernel
      unlocked := by decide +kernel }
  room := by decide +kernel
  winner := by decide +kernel
  maySet := by decide +kernel
  mayDisable := by decide +kernel

end Single

open Single

/-- After an oracle that has started is replaced by one that is done with the slot, the slot is not
opened again, nor can it be. -/
theorem once_after_marked_replacement :
    let e := (engine.after before).act 484 (starting 484)
    e.Throughout (NotAgain 31) (replaced 31 868 63) ∧
      ∀ more, (e.after (replaced 31 868 63)).Orderly 868 more →
        (e.after (replaced 31 868 63)).Throughout (SuccessorDone 31) more →
        (e.after (replaced 31 868 63)).Throughout (NotAgain 31) more := by
  intro e
  have hnow : (484 : Word) ≤ 868 := by decide
  have hslot : (engine.after before).processor.report.refSlot = 31 := by decide +kernel
  have hsize : (e.after (replaced 31 868 63)).roster.size < UInt64.size - 1 := by decide +kernel
  obtain ⟨honce, hexact⟩ :=
    processed_once create_engine suits_first (orderly_replaced hnow 63) started_first
  rw [hslot] at honce hexact
  refine ⟨honce ⟨?_, nofun, trivial⟩, ?_⟩
  · rintro _ _ ⟨⟩ -
    exact .inl (by decide)
  · refine (hexact 868 admin ⟨1, 63, 95⟩ canReopen_next hsize willing_reportLog).mp (.inl ?_)
    decide +kernel

/-- If the new oracle has not marked the slot, the engine hands over a report for it when the member
votes again, and the new oracle starts it as the first one did. -/
theorem processed_twice :
    let e := (engine.after before).act 484 (starting 484)
    create setup (oracle 6 0) = .ok engine ∧ engine.Suits (oracle 6 0) ∧
      engine.Orderly 0 (before ++ (484, starting 484) :: replaced 0 484 31) ∧
      ((engine.after before).processor.startProcessing 484).result = .ok 0 ∧
      (engine.after before).processor.report.refSlot = 31 ∧
      ¬ e.Throughout (NotAgain 31) (replaced 0 484 31) ∧
      ((e.after (replaced 0 484 31)).processor.startProcessing 484).result = .ok 0 ∧
      (e.after (replaced 0 484 31)).processor.report = ⟨reportOf 2, 31, 856⟩ := by
  intro e
  refine ⟨create_engine, suits_first, orderly_replaced (UInt64.le_refl _) 31, started_first,
    by decide +kernel, ?_, ?_, by decide +kernel⟩
  · rintro ⟨-, hvote, -⟩
    have hmem : .reportSubmitted 31 (reportOf 2) 856 ∈
        (e.after ((replaced 0 484 31).take 1)).told 484 (vote 31 2) := by
      decide +kernel
    exact UInt64.lt_irrefl _ (hvote.told _ _ _ _ rfl hmem)
  · have hheld : (e.after (replaced 0 484 31)).processor.held = some ⟨31, reportOf 2⟩ := by
      decide +kernel
    exact started (by decide +kernel) hheld (by decide +kernel)

end ReportQuorum.Engine
