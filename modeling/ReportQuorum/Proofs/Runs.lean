import ReportQuorum.Proofs.Calls

/-!
# Runs of an engine

An engine is called by many parties at moments that need not be in order. Between the calls its
processor may change on its own, and somebody may fetch the events.

## Main definitions

* `Engine.Act`: what may happen to an engine
* `Engine.after`: the engine after a run, a list of such acts with their moments
* `Engine.accepted`: the calls of a run that were accepted
* `Engine.Throughout`: every act of a run meets a condition
* `Engine.emitted`: the events that a call leaves
* `Engine.standing`: the vote that an account cast last since it joined

## Main results

* `Engine.after_append`, `Engine.accepted_append`: runs in two parts
* `Engine.events_perform`: a call only adds events
* `Engine.Performed.reached`: what an event that tells of an agreement says
-/

namespace ReportQuorum.Engine

variable {π ε : Type}

/-- What may happen to an engine. -/
inductive Act (π : Type) where
  /-- Somebody calls the engine. -/
  | call (c : Command π)
  /-- Something happens to the processor that the engine knows nothing of. -/
  | tend (f : π → π)
  /-- Somebody fetches the events. -/
  | drain

section Runs

variable [ReportProcessor π ε] {e : Engine π} {now : Word}

/-- The engine after an act at a moment. -/
def act (e : Engine π) (now : Word) : Act π → Engine π
  | .call c => (e.perform now c).state
  | .tend f => { e with processor := f e.processor }
  | .drain => e.drained

/-- The engine after a run. -/
def after (e : Engine π) : List (Word × Act π) → Engine π
  | [] => e
  | (now, a) :: run => (e.act now a).after run

/-- Whether a call is accepted. -/
def accepts (e : Engine π) (now : Word) (c : Command π) : Bool := (e.perform now c).result.isOk

/-- The call made by an act, if it is accepted. -/
def acceptedIn (e : Engine π) (now : Word) : Act π → List (Command π)
  | .call c => if e.accepts now c then [c] else []
  | .tend _ => []
  | .drain => []

/-- The calls of a run that are accepted, in their order. -/
def accepted (e : Engine π) : List (Word × Act π) → List (Command π)
  | [] => []
  | (now, a) :: run => e.acceptedIn now a ++ (e.act now a).accepted run

/-- The events that a call adds to those not yet fetched. -/
def emitted (e : Engine π) (now : Word) (c : Command π) : List Event :=
  (e.perform now c).state.events.drop e.events.length

@[simp] theorem after_append (e : Engine π) (run run' : List (Word × Act π)) :
    e.after (run ++ run') = (e.after run).after run' := by
  induction run generalizing e with
  | nil => rfl
  | cons a run ih => exact ih _

@[simp] theorem accepted_append (e : Engine π) (run run' : List (Word × Act π)) :
    e.accepted (run ++ run') = e.accepted run ++ (e.after run).accepted run' := by
  induction run generalizing e with
  | nil => rfl
  | cons a run ih =>
    rw [List.cons_append, accepted, accepted, after, ih, List.append_assoc]

/-- What every act keeps holds after a run if it holds before it. It may speak of the calls accepted
so far. -/
theorem invariant_after {I : Engine π → List (Command π) → Prop}
    (hstep : ∀ e cs now a, I e cs → I (e.act now a) (cs ++ e.acceptedIn now a))
    {cs : List (Command π)} (h : I e cs) (run : List (Word × Act π)) :
    I (e.after run) (cs ++ e.accepted run) := by
  induction run generalizing e cs with
  | nil =>
    rw [accepted, List.append_nil]
    exact h
  | cons a run ih =>
    rw [accepted, ← List.append_assoc]
    exact ih (hstep e cs a.1 a.2 h)

/-- Every act of a run meets a condition on the engine before it, the moment and the act. -/
def Throughout (P : Engine π → Word → Act π → Prop) (e : Engine π) : List (Word × Act π) → Prop
  | [] => True
  | (now, a) :: run => P e now a ∧ (e.act now a).Throughout P run

theorem throughout_append {P : Engine π → Word → Act π → Prop} {run run' : List (Word × Act π)} :
    e.Throughout P (run ++ run') ↔ e.Throughout P run ∧ (e.after run).Throughout P run' := by
  induction run generalizing e with
  | nil => simp [Throughout, after]
  | cons a run ih =>
    rw [List.cons_append, Throughout, Throughout, after, ih, and_assoc]

/-- A condition on the engine that all acts of a run keep holds after the run. -/
theorem Throughout.keep {P : Engine π → Word → Act π → Prop} {I : Engine π → Prop}
    (hstep : ∀ e now a, I e → P e now a → I (e.act now a)) {run : List (Word × Act π)}
    (hrun : e.Throughout P run) (h : I e) : I (e.after run) := by
  induction run generalizing e with
  | nil => exact h
  | cons a run ih => exact ih hrun.2 (hstep e a.1 a.2 h hrun.1)

/-- A condition on engine and time that time and all acts keep holds after a run on a clock that
does not go back, and from then on. -/
theorem invariant_of_clock {I : Engine π → Word → Prop}
    (hmono : ∀ e now now', now ≤ now' → I e now → I e now')
    (hact : ∀ e now a, I e now → I (e.act now a) now) {since : Word} (h : I e since)
    {run : List (Word × Act π)} (hclock : (since :: run.map (·.1)).Pairwise (· ≤ ·)) {now : Word}
    (hnow : ∀ t ∈ since :: run.map (·.1), t ≤ now) : I (e.after run) now := by
  induction run generalizing e since with
  | nil => exact hmono e since now (hnow since (List.mem_singleton_self _)) h
  | cons a run ih =>
    obtain ⟨hsince, hrest⟩ := List.pairwise_cons.mp hclock
    have hstart := hmono e since a.1 (hsince a.1 (List.mem_cons_self ..)) h
    exact ih (hact e a.1 a.2 hstart) hrest fun t ht => hnow t (List.mem_cons_of_mem _ ht)

end Runs

/-! ### The events of a call -/

section Events

variable [ReportProcessor π ε] {e e' e₁ : Engine π} {now : Word} {c : Command π}

/-- Whether an event tells of the outcome of a settlement. -/
def Event.isOutcome : Event → Bool
  | .consensusReached .. => true
  | .consensusLost .. => true
  | _ => false

/-- Events were added, none of which tells of an outcome. -/
def Quiet (e e' : Engine π) : Prop :=
  ∃ events, e'.events = e.events ++ events ∧ ∀ event ∈ events, event.isOutcome = false

theorem Quiet.of_eq (h : e'.events = e.events) : e.Quiet e' :=
  ⟨[], by rw [h, List.append_nil], nofun⟩

theorem Quiet.emit (h : e.Quiet e') {event : Event} (hevent : event.isOutcome = false) :
    e.Quiet (e'.emit event) := by
  obtain ⟨events, heq, hquiet⟩ := h
  refine ⟨events ++ [event], ?_, ?_⟩
  · rw [Engine.emit, heq, List.append_assoc]
  · intro event' hmem
    obtain hold | hnew := List.mem_append.mp hmem
    · exact hquiet event' hold
    · rw [List.mem_singleton.mp hnew]
      exact hevent

theorem Quiet.emitIf (h : e.Quiet e') (changed : Bool) {event : Event}
    (hevent : event.isOutcome = false) : e.Quiet (e'.emitIf changed event) := by
  cases changed with
  | false => exact h
  | true => exact h.emit hevent

theorem Quiet.requorum (h : e.Quiet e') (quorum : Word) : e.Quiet (e'.requorum quorum) := by
  rw [Engine.requorum]
  split
  · exact h
  · exact (h : e.Quiet { e' with quorum }).emit rfl

/-- Before the votes are settled no outcome is told. -/
theorem Amends.quiet {settles : Bool} (h : e.Amends now c e₁ settles) : e.Quiet e₁ := by
  cases h with
  | grantRole _ => exact (Quiet.of_eq rfl).emitIf _ rfl
  | revokeRole _ => exact (Quiet.of_eq rfl).emitIf _ rfl
  | updateInitialEpoch _ _ _ => exact (Quiet.of_eq rfl).emitIf _ rfl
  | setFrameConfig _ _ => exact ((Quiet.of_eq rfl).emitIf _ rfl).emitIf _ rfl
  | setFastLane _ _ => exact (Quiet.of_eq rfl).emitIf _ rfl
  | addMember _ _ _ => exact ((Quiet.of_eq rfl).emit rfl).requorum _
  | removeMember _ _ _ => exact ((Quiet.of_eq rfl).emit rfl).requorum _
  | setQuorum _ => exact (Quiet.of_eq rfl).requorum _
  | disableConsensus _ => exact (Quiet.of_eq rfl).requorum _
  | submitReport _ => exact (Quiet.of_eq rfl).emit rfl

/-- The ways in which a settlement adds to the events: not at all, or with its outcome. -/
theorem Settled.events {r : Reply (Error ε) (Engine π) Unit} (h : e.Settled now r) :
    r.state.events = e.events ∨ ∃ event, r.state.events = e.events ++ [event] := by
  cases h with
  | lost _ _ _ _ => exact .inr ⟨_, rfl⟩
  | reached _ _ _ _ _ => exact .inr ⟨_, rfl⟩
  | _ => exact .inl rfl

theorem Performed.events {r : Reply (Error ε) (Engine π) (Option π)} (h : e.Performed now c r) :
    ∃ events, r.state.events = e.events ++ events := by
  cases h with
  | refused _ => exact ⟨[], (List.append_nil _).symm⟩
  | amended hamends =>
    obtain ⟨events, heq, -⟩ := hamends.quiet
    exact ⟨events, heq⟩
  | @settled _ e₁ e₂ hamends hs =>
    obtain ⟨events, heq, -⟩ := hamends.quiet
    obtain hsame | ⟨event, hmore⟩ := hs.events
    · exact ⟨events, hsame.trans heq⟩
    · refine ⟨events ++ [event], ?_⟩
      rw [← List.append_assoc, ← heq]
      exact hmore
  | undone _ _ => exact ⟨[], (List.append_nil _).symm⟩
  | replaced _ _ _ _ => exact ⟨_, rfl⟩

/-- A call only adds events. -/
theorem events_perform (e : Engine π) (now : Word) (c : Command π) :
    (e.perform now c).state.events = e.events ++ e.emitted now c := by
  obtain ⟨events, h⟩ := (e.performed now c).events
  rw [emitted, h, List.drop_left]

/-- An event that tells of an agreement is left only by a settlement that reached it. -/
theorem Performed.reached {r : Reply (Error ε) (Engine π) (Option π)} (h : e.Performed now c r)
    {events : List Event} (hevents : r.state.events = e.events ++ events) {refSlot support : Word}
    {report : Digest} (hmem : .consensusReached refSlot report support ∈ events) :
    ∃ e₁ f v, e.Amends now c e₁ true ∧ e₁.Open now f ∧ e₁.winnerFor f.refSlot = some v ∧
      refSlot = f.refSlot ∧ report = v.report ∧ support = v.support ∧
      e₁.SameVotes r.state ∧ r.result.isOk = true := by
  -- An outcome comes only after the quiet part of a call.
  have hlate : ∀ e' told, e.Quiet e' → e'.events ++ told = e.events ++ events →
      .consensusReached refSlot report support ∈ told := by
    rintro e' told ⟨others, heq, hothers⟩ hsame
    rw [heq, List.append_assoc] at hsame
    rw [← List.append_cancel_left hsame] at hmem
    obtain hquiet | hlate := List.mem_append.mp hmem
    · exact absurd (hothers _ hquiet) (by simp [Event.isOutcome])
    · exact hlate
  have hnone : ∀ e', e.Quiet e' → e'.events ≠ e.events ++ events := fun e' hquiet hsame =>
    List.not_mem_nil (hlate e' [] hquiet (by rw [List.append_nil, hsame]))
  cases h with
  | refused _ => exact absurd hevents (hnone _ (.of_eq rfl))
  | amended hamends => exact absurd hevents (hnone _ hamends.quiet)
  | undone _ _ => exact absurd hevents (hnone _ (.of_eq rfl))
  | replaced _ _ _ _ => exact absurd hevents (hnone _ ((Quiet.of_eq rfl).emit rfl))
  | @settled _ e₁ e₂ hamends hs =>
    have hvotes := hs.sameVotes
    -- Only a settlement that reaches a quorum is left, and it tells of nothing else.
    cases hs with
    | closed _ _ => exact absurd hevents (hnone _ hamends.quiet)
    | unchanged _ _ => exact absurd hevents (hnone _ hamends.quiet)
    | lost _ _ _ _ =>
      have hmem := hlate _ _ hamends.quiet hevents
      simp at hmem
    | @reached f v _ _ hopen winner _ _ _ =>
      have hmem := hlate _ _ hamends.quiet hevents
      simp only [List.mem_singleton, Event.consensusReached.injEq] at hmem
      obtain ⟨hslot, hreport, hsupport⟩ := hmem
      exact ⟨e₁, f, v, hamends, hopen, winner, hslot, hreport, hsupport, hvotes, rfl⟩

end Events

/-! ### The votes that stand -/

/-- The vote of an account after one more accepted call. -/
def Command.revise (a : Address) (vote : Option Vote) : Command π → Option Vote
  | .submitReport sender v _ => if sender = a then some v else vote
  | .addMember _ member _ => if member = a then none else vote
  | _ => vote

/-- The vote that an account cast last since it joined, as the accepted calls tell. -/
def standing (a : Address) (cs : List (Command π)) : Option Vote :=
  cs.foldl (Command.revise a) none

theorem standing_append_singleton (a : Address) (cs : List (Command π)) (c : Command π) :
    standing a (cs ++ [c]) = c.revise a (standing a cs) := by
  rw [standing, List.foldl_append, List.foldl_cons, List.foldl_nil, standing]

end ReportQuorum.Engine
