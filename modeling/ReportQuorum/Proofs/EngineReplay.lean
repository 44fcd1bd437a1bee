import ReportQuorum.Proofs.Refusals
import ReportQuorum.Proofs.RoleOrder
import ReportQuorum.Proofs.Runs
import ReportQuorum.Proofs.Seats

/-!
# The events of an engine tell its state

Whoever has fetched all events of an engine since it was made knows its members with their votes,
its quorum, its frames, who holds which role, its processor and its tally: going through the events
in their order gives exactly these. The calls that are refused, and those that change nothing, leave
no trace in the events, and every event is news.

An engine may be bound to any processor, and a processor may take another address on its own. Events
tell the address under which a processor was bound.

## Main definitions

* `Engine.Picture`: what is known of an engine from its events
* `Engine.Picture.next`, `Engine.Picture.replay`: what is known after one more event and after many
* `Engine.Picture.Leads`: events lead from one picture to another, and each of them is news
* `Engine.picture`: the picture that an engine should give
* `Engine.log`: all that an engine tells during a run, whether it is fetched or not

## Main results

* `Engine.Amends.shows`, `Engine.Settled.shows`, `Engine.Performed.shows`: what a call changes is
  told
* `Engine.leads_log`: what is told in a run leads to the picture at its end
-/

namespace ReportQuorum

/-- The roster after a member has left, if it was one. -/
def Roster.without (r : Roster) (a : Address) : Roster :=
  match r.indexOf? a with
  | none => r
  | some i => ⟨swapRemove r.seats i⟩

/-- A member that leaves is gone, and the roster is what the event tells. -/
theorem Roster.without_of_remove {r r' : Roster} {a : Address} {v : Vote}
    (h : r.remove a = .ok (r', v)) : r.without a = r' ∧ r'.size < r.size := by
  rw [remove] at h
  split at h
  next i v hi hv =>
    cases h
    obtain ⟨hlt, -, -⟩ := List.findIdx?_eq_some_iff_getElem.mp hi
    refine ⟨by rw [without, indexOf?, hi], ?_⟩
    have hlength := (swapRemove_perm hlt).length_eq
    rw [List.length_eraseIdx_of_lt hlt] at hlength
    change (swapRemove r.seats i).length < r.seats.length
    omega
  next => cases h

theorem FrameLayout.mk_eq_iff (l : FrameLayout) (epoch epochs slots : Word) :
    (⟨epoch, epochs, slots⟩ : FrameLayout) = l ↔
      epoch = l.initialEpoch ∧ epochs = l.epochsPerFrame ∧ slots = l.fastLaneSlots := by
  cases l
  simp

namespace Engine

/-- What is known of an engine from its events. -/
structure Picture where
  roster : Roster := {}
  quorum : Word := 0
  layout : FrameLayout := ⟨0, 0, 0⟩
  roles : RoleTable
  /-- The address under which the processor was bound. -/
  processor : Address := Octets.zero
  tally : Tally := {}
deriving DecidableEq

namespace Picture

/-- What is known before anything has been told: the first administrator. -/
def start (admin : Address) : Picture := { roles := .ofAdmin admin }

/-- What is known after one more event. -/
def next (v : Picture) : Event → Picture
  | .frameConfigSet initialEpoch epochsPerFrame =>
    { v with layout := { v.layout with initialEpoch, epochsPerFrame } }
  | .fastLaneConfigSet fastLaneSlots => { v with layout := { v.layout with fastLaneSlots } }
  | .memberAdded member _ _ => { v with roster := ⟨v.roster.seats ++ [{ member }]⟩ }
  | .memberRemoved member _ _ => { v with roster := v.roster.without member }
  | .quorumSet quorum _ _ => { v with quorum }
  | .reportReceived refSlot member report =>
    { v with
      roster := v.roster.record member ⟨refSlot, report⟩
      tally := v.tally.record ⟨refSlot, report⟩ }
  | .consensusReached refSlot report _ => { v with tally := v.tally.setAgreed refSlot report }
  | .consensusLost refSlot => { v with tally := v.tally.setAgreed refSlot none }
  | .reportProcessorSet processor _ => { v with processor }
  | .roleGranted role account _ => { v with roles := v.roles.insert role account }
  | .roleRevoked role account _ => { v with roles := v.roles.erase role account }

/-- What is known after events. -/
def replay (v : Picture) (events : List Event) : Picture := events.foldl next v

/-- An event is news: it changes what is known, or tells of a processor with another address than
the one that it replaces. -/
def News (v : Picture) (event : Event) : Prop :=
  v.next event ≠ v ∨
    ∃ processor previous, event = .reportProcessorSet processor previous ∧ processor ≠ previous

/-- Events lead from one picture to another, and each of them is news. -/
inductive Leads : Picture → List Event → Picture → Prop
  | nothing (v : Picture) : Leads v [] v
  | event {v v' : Picture} {event : Event} {events : List Event} (h : v.News event)
      (rest : Leads (v.next event) events v') : Leads v (event :: events) v'

variable {v v' v'' : Picture} {event : Event} {events events' before rest : List Event}

theorem Leads.single (h : v.News event) (hnext : v.next event = v') : v.Leads [event] v' := by
  subst hnext
  exact .event h (.nothing _)

theorem Leads.trans (h : v.Leads events v') (h' : v'.Leads events' v'') :
    v.Leads (events ++ events') v'' := by
  induction h with
  | nothing _ => exact h'
  | event hnews _ ih => exact .event hnews (ih h')

theorem Leads.replay_eq (h : v.Leads events v') : v.replay events = v' := by
  induction h with
  | nothing _ => rfl
  | event _ _ ih => exact ih

/-- Wherever a sequence of events is cut, the next one is news. -/
theorem Leads.news (h : v.Leads (before ++ event :: rest) v') : (v.replay before).News event := by
  induction before generalizing v with
  | nil =>
    cases h with
    | event hnews _ => exact hnews
  | cons first before ih =>
    cases h with
    | event _ hrest => exact ih hrest

/-- Events keep the table of roles in order. -/
theorem Leads.ordered (h : v.Leads events v') (hroles : v.roles.Ordered) : v'.roles.Ordered := by
  induction h with
  | nothing _ => exact hroles
  | @event v _ event _ _ _ ih =>
    refine ih ?_
    cases event with
    | roleGranted role account _ => exact hroles.insert role account
    | roleRevoked role account _ => exact hroles.erase role account
    | _ => exact hroles

end Picture

open ReportProcessor (Asked FixedAddress)

variable {π ε : Type} {e e' e'' e₁ : Engine π} {a a' a'' : Address} {event : Event}

/-- The picture that an engine should give if its processor was bound under an address. -/
def picture (e : Engine π) (processor : Address) : Picture where
  roster := e.roster
  quorum := e.quorum
  layout := e.schedule.layout
  roles := e.roles
  processor
  tally := e.tally

/-- The events added to an engine lead from the picture of the one to that of the other, whose
processors were bound under these addresses. -/
def Shows (e : Engine π) (a : Address) (e' : Engine π) (a' : Address) : Prop :=
  ∃ events, e'.events = e.events ++ events ∧ (e.picture a).Leads events (e'.picture a')

theorem Shows.of_eq (hevents : e'.events = e.events) (hpicture : e'.picture a = e.picture a) :
    e.Shows a e' a := by
  refine ⟨[], ?_, ?_⟩
  · rw [hevents, List.append_nil]
  · rw [hpicture]
    exact .nothing _

theorem Shows.trans (h : e.Shows a e' a') (h' : e'.Shows a' e'' a'') : e.Shows a e'' a'' := by
  obtain ⟨events, hevents, hleads⟩ := h
  obtain ⟨events', hevents', hleads'⟩ := h'
  exact ⟨events ++ events', by rw [hevents', hevents, List.append_assoc], hleads.trans hleads'⟩

theorem shows_emit (hevents : e'.events = e.events)
    (hnext : (e.picture a).next event = e'.picture a') (hnews : (e.picture a).News event) :
    e.Shows a (e'.emit event) a' :=
  ⟨[event], by rw [emit, hevents], .single hnews hnext⟩

/-- An event that tells what has become of an engine is told exactly if that is another picture. -/
theorem shows_emitIf {changed : Bool} (hevents : e'.events = e.events)
    (hnext : (e.picture a).next event = e'.picture a)
    (hchanged : changed = false ↔ e'.picture a = e.picture a) :
    e.Shows a (e'.emitIf changed event) a := by
  cases changed with
  | false => exact .of_eq hevents (hchanged.mp rfl)
  | true =>
    refine shows_emit hevents hnext (.inl fun hsame => ?_)
    cases hchanged.mpr (hnext.symm.trans hsame)

/-! ### Changes of an engine -/

theorem shows_requorum (e : Engine π) (a : Address) (quorum : Word) :
    e.Shows a (e.requorum quorum) a := by
  have hrequorum : e.requorum quorum = { e with quorum }.emitIf (quorum != e.quorum)
      (.quorumSet quorum e.roster.count e.quorum) := by
    rw [requorum]
    split
    next hsame => simp [hsame, emitIf]
    next hdiffers => simp [hdiffers, emitIf]
  rw [hrequorum]
  exact shows_emitIf rfl rfl (by simp [picture])

/-- A change of the roster is told, and then that of the quorum. -/
theorem shows_reseat {roster : Roster}
    (hnext : (e.picture a).next event = { e.picture a with roster }) (hnew : roster ≠ e.roster)
    (quorum : Word) : e.Shows a (({ e with roster }.emit event).requorum quorum) a := by
  have hnews : (e.picture a).News event :=
    .inl fun hsame => hnew (congrArg Picture.roster (hnext.symm.trans hsame))
  have hseated : e.Shows a ({ e with roster }.emit event) a := shows_emit rfl hnext hnews
  exact hseated.trans (shows_requorum _ a quorum)

theorem shows_recordVote {sender : Address} {vote : Vote}
    (hnew : (e.roster.record sender vote) ≠ e.roster) : e.Shows a (e.recordVote sender vote) a :=
  shows_emit rfl rfl (.inl fun hsame => hnew (congrArg Picture.roster hsame))

theorem shows_setFrames (e : Engine π) (a : Address) (epoch epochs : Word) :
    e.Shows a
      ({ e with schedule.layout := { e.schedule.layout with
          initialEpoch := epoch, epochsPerFrame := epochs } }.emitIf
        (epoch != e.schedule.layout.initialEpoch || epochs != e.schedule.layout.epochsPerFrame)
        (.frameConfigSet epoch epochs)) a :=
  shows_emitIf rfl rfl (by simp [picture, FrameLayout.mk_eq_iff])

theorem shows_setFastLane (e : Engine π) (a : Address) (slots : Word) :
    e.Shows a
      ({ e with schedule.layout.fastLaneSlots := slots }.emitIf
        (slots != e.schedule.layout.fastLaneSlots) (.fastLaneConfigSet slots)) a :=
  shows_emitIf rfl rfl (by simp [picture, FrameLayout.mk_eq_iff])

variable [ReportProcessor π ε] {now : Word} {c : Command π}

/-- What an accepted call changes before the votes are settled is told. -/
theorem Amends.shows {settles : Bool} (h : e.Amends now c e₁ settles) (hroles : e.roles.Ordered)
    (a : Address) : e.Shows a e₁ a := by
  cases h with
  | grantRole _ =>
    refine shows_emitIf rfl rfl ?_
    simp [picture, RoleTable.insert_eq_self_iff hroles]
  | revokeRole _ =>
    refine shows_emitIf rfl rfl ?_
    simp [picture, RoleTable.erase_eq_self_iff]
  | updateInitialEpoch _ hs _ =>
    obtain ⟨-, -, rfl, rfl⟩ := Schedule.setInitialEpoch_eq_ok.mp hs
    refine shows_emitIf rfl rfl ?_
    simp [picture, FrameLayout.mk_eq_iff]
  | @setFrameConfig _ epochs slots s change _ hs =>
    obtain ⟨epoch, rfl, hframes, hlane⟩ := Schedule.change_of_reconfigure hs
    rw [hframes, hlane]
    -- The frames are told first, while the length of the fast lane is the old one.
    refine (e.shows_setFrames a epoch epochs).trans ?_
    generalize (epoch != _ || epochs != _) = changed
    let between : Engine π := { e with schedule.layout :=
      { e.schedule.layout with initialEpoch := epoch, epochsPerFrame := epochs } }
    cases changed with
    | false => exact between.shows_setFastLane a slots
    | true => exact (between.emit (.frameConfigSet epoch epochs)).shows_setFastLane a slots
  | @setFastLane _ slots s _ _ hs =>
    obtain rfl := Schedule.setFastLane_eq_ok hs
    rw [← Schedule.changed_of_setFastLane hs]
    exact e.shows_setFastLane a slots
  | addMember _ hr _ =>
    -- One member more or less makes another roster, whoever it is.
    obtain ⟨-, -, rfl⟩ := Roster.insert_eq_ok.mp hr
    refine shows_reseat rfl (fun hsame => ?_) _
    have hseats := congrArg Roster.size hsame
    simp [Roster.size] at hseats
  | removeMember _ hr _ =>
    obtain ⟨hwithout, hfewer⟩ := Roster.without_of_remove hr
    refine shows_reseat (congrArg (fun roster => { e.picture a with roster }) hwithout)
      (fun hsame => ?_) _
    rw [hsame] at hfewer
    exact absurd hfewer (Nat.lt_irrefl _)
  | setQuorum _ => exact e.shows_requorum a _
  | disableConsensus _ => exact e.shows_requorum a _
  | @submitReport sender vote _ _ hjudge =>
    -- If the roster were the same after the vote, the vote would be on record before it.
    refine shows_recordVote fun hsame => vote?_ne_of_judge hjudge ?_
    obtain ⟨_, hmay, -⟩ := mayVote_of_judge hjudge
    rw [← hsame]
    exact Roster.vote?_record hmay.member vote

/-- A new outcome of a settlement is told. -/
theorem Settled.shows {r : Reply (Error ε) (Engine π) Unit} (h : e.Settled now r) (a : Address) :
    e.Shows a r.state a := by
  cases h with
  | @lost f d p _ _ held _ =>
    refine shows_emit (e := e) rfl rfl (.inl fun hsame => ?_)
    -- Something was agreed on before, and nothing is now.
    have hagreed := congrArg (fun v => v.tally.agreedFor f.refSlot) hsame
    change none = e.tally.agreedFor f.refSlot at hagreed
    rw [held] at hagreed
    cases hagreed
  | @reached f v p q _ _ new _ _ =>
    refine shows_emit (e := e) rfl rfl (.inl fun hsame => new ?_)
    have hagreed := congrArg (fun v => v.tally.agreed) hsame
    exact Tally.agreedFor_eq_some_iff.mpr hagreed.symm
  | _ => exact .of_eq rfl rfl

/-- The address under which the processor is bound after one more accepted call. -/
def Command.rebind (a : Address) : Command π → Address
  | .setReportProcessor _ p => ReportProcessor.address p
  | _ => a

theorem Command.rebind_of_amends {settles : Bool} (h : e.Amends now c e₁ settles) (a : Address) :
    c.rebind a = a := by
  cases h <;> rfl

theorem Performed.shows {r : Reply (Error ε) (Engine π) (Option π)} (h : e.Performed now c r)
    (hroles : e.roles.Ordered) (a : Address) :
    e.Shows a r.state (if r.result.isOk then c.rebind a else a) := by
  cases h with
  | refused _ => exact .of_eq rfl rfl
  | undone _ _ => exact .of_eq rfl rfl
  | amended hamends =>
    change e.Shows a _ (c.rebind a)
    rw [Command.rebind_of_amends hamends]
    exact hamends.shows hroles a
  | settled hamends hs =>
    change e.Shows a _ (c.rebind a)
    rw [Command.rebind_of_amends hamends]
    exact (hamends.shows hroles a).trans (hs.shows a)
  | @replaced caller p p' _ _ same _ =>
    -- The old processor may have left the address under which it was bound, and the new one may
    -- have that address; so it is the addresses in the event that differ.
    exact shows_emit (e := e) rfl rfl (.inr ⟨_, _, rfl, same⟩)

/-! ### Runs -/

/-- The events that an act takes away from those not yet fetched. -/
def fetchedIn (e : Engine π) : Act π → List Event
  | .drain => e.events
  | _ => []

/-- All that an engine has told by the end of a run: what is fetched during the run, in its order,
and what is left. -/
def log (e : Engine π) : List (Word × Act π) → List Event
  | [] => e.events
  | (now, a) :: run => e.fetchedIn a ++ (e.act now a).log run

/-- The address under which the processor is bound at the end of a run, if it was bound under an
address at the beginning. -/
def boundAs (e : Engine π) (a : Address) (run : List (Word × Act π)) : Address :=
  (e.accepted run).foldl Command.rebind a

theorem rebind_acceptedIn (a : Address) :
    (e.acceptedIn now (.call c)).foldl Command.rebind a =
      if (e.perform now c).result.isOk then c.rebind a else a := by
  rw [acceptedIn, accepts]
  split <;> rfl

/-- An act loses nothing told before, and what it changes is told. -/
theorem leads_act (hroles : e.roles.Ordered) (a : Address) (now : Word) (act : Act π) :
    ∃ events, e.fetchedIn act ++ (e.act now act).events = e.events ++ events ∧
      (e.picture a).Leads events
        ((e.act now act).picture ((e.acceptedIn now act).foldl Command.rebind a)) := by
  cases act with
  | call c =>
    rw [rebind_acceptedIn]
    exact (e.performed now c).shows hroles a
  | tend f => exact ⟨[], (List.append_nil _).symm, .nothing _⟩
  | drain => exact ⟨[], rfl, .nothing _⟩

/-- What is told in a run leads to the picture at its end. What was fetched before the run stays in
it. -/
theorem leads_log {start : Picture} {past : List Event}
    (h : start.Leads (past ++ e.events) (e.picture a)) (hstart : start.roles.Ordered)
    (run : List (Word × Act π)) :
    start.Leads (past ++ e.log run) ((e.after run).picture (e.boundAs a run)) := by
  -- Each act appends to what was told before it, fetched or not; the table of roles is in order
  -- because the events so far keep it so.
  induction run generalizing e past a with
  | nil => exact h
  | cons x run ih =>
    obtain ⟨now, act⟩ := x
    have hroles : e.roles.Ordered := h.ordered hstart
    obtain ⟨events, hevents, hleads⟩ := leads_act hroles a now act
    rw [log, boundAs, accepted, List.foldl_append, ← List.append_assoc]
    refine ih ?_
    rw [List.append_assoc, hevents, ← List.append_assoc]
    exact h.trans hleads

/-- What a new engine tells leads from its first administrator to the engine. -/
theorem leads_create {setup : Setup} {p : π} (h : create setup p = .ok e) :
    (Picture.start setup.admin).Leads e.events (e.picture (ReportProcessor.address p)) := by
  rw [create, refusal_eq_ok (by simp), refusal_eq_ok (by simp)] at h
  obtain ⟨-, hzero, h⟩ := h
  split at h
  · cases h
  next schedule hschedule =>
    obtain ⟨-, hlengths, rfl⟩ := Schedule.dormant_eq_ok.mp hschedule
    rw [Schedule.checkLengths, refusal_eq_ok (by simp)] at hlengths
    cases h
    -- All fields but the frames and the processor are as an observer assumes them, so the three
    -- events are told by an engine without frames, whose processor has the zero address.
    let bare : Engine π :=
      { address := setup.address, schedule := ⟨setup.grid, ⟨0, 0, 0⟩⟩, roster := {}, quorum := 0
        tally := {}, roles := .ofAdmin setup.admin, processor := p, events := [] }
    let framed : Engine π :=
      { bare with schedule.layout := ⟨setup.grid.farFutureEpoch, setup.epochsPerFrame, 0⟩ }.emit
        (.frameConfigSet setup.grid.farFutureEpoch setup.epochsPerFrame)
    have hframes : bare.Shows Octets.zero framed Octets.zero := by
      refine shows_emit rfl rfl (.inl fun hsame => hlengths.1 ?_)
      exact congrArg (fun v => v.layout.epochsPerFrame) hsame
    have hlane := framed.shows_setFastLane Octets.zero setup.fastLaneSlots
    have hbound : ReportProcessor.address p ≠ Octets.zero :=
      fun h => hzero (Octets.isZero_iff.mpr h)
    obtain ⟨events, hevents, hleads⟩ := (hframes.trans hlane).trans
      (shows_emit rfl rfl (.inr ⟨_, _, rfl, hbound⟩))
    rw [List.nil_append] at hevents
    exact hevents ▸ hleads

/-! ### Addresses that stay -/

/-- A processor that keeps its address still has it after a call, or has been replaced. -/
theorem Performed.address_eq {r : Reply (Error ε) (Engine π) (Option π)} (h : e.Performed now c r)
    (hfixed : FixedAddress π) :
    ReportProcessor.address r.state.processor =
      if r.result.isOk then c.rebind (ReportProcessor.address e.processor)
      else ReportProcessor.address e.processor := by
  cases h with
  | refused _ => rfl
  | undone hamends hs =>
    change ReportProcessor.address _ = ReportProcessor.address _
    rw [hs.asked.address_eq hfixed, hamends.keeps.processor]
  | amended hamends =>
    change ReportProcessor.address _ = c.rebind _
    rw [Command.rebind_of_amends hamends, hamends.keeps.processor]
  | settled hamends hs =>
    change ReportProcessor.address _ = c.rebind _
    rw [Command.rebind_of_amends hamends, hs.asked.address_eq hfixed, hamends.keeps.processor]
  | @replaced _ p p' _ _ _ hp =>
    obtain rfl | ⟨_, _, -, -, -, -, hsubmit⟩ := handOver_eq_ok hp
    · rfl
    · exact (Asked.nothing.of_submit hsubmit).address_eq hfixed

/-- Whatever happens to the processor on its own leaves its address. -/
def KeepsAddress (e : Engine π) (_ : Word) : Act π → Prop
  | .tend f => ReportProcessor.address (f e.processor) = ReportProcessor.address e.processor
  | _ => True

/-- A processor that keeps its address has the one under which it was bound. -/
theorem boundAs_eq (hfixed : FixedAddress π) {run : List (Word × Act π)}
    (hrun : e.Throughout KeepsAddress run) :
    e.boundAs (ReportProcessor.address e.processor) run =
      ReportProcessor.address (e.after run).processor := by
  induction run generalizing e with
  | nil => rfl
  | cons x run ih =>
    obtain ⟨now, act⟩ := x
    obtain ⟨hact, hrest⟩ := hrun
    rw [after, ← ih hrest, boundAs, accepted, List.foldl_append, ← boundAs]
    -- What is left is that the first act leaves the processor with the address it is bound under.
    congr 1
    cases act with
    | call c =>
      rw [rebind_acceptedIn]
      exact ((e.performed now c).address_eq hfixed).symm
    | tend f => exact hact.symm
    | drain => rfl

end Engine

end ReportQuorum
