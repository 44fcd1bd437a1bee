import Mathlib.Data.List.Infix
import ReportQuorum.Proofs.Acceptance
import ReportQuorum.Proofs.Authority
import ReportQuorum.Proofs.Exchanges
import ReportQuorum.Proofs.RoleOrder

/-!
# Switching agreement off

The administrator of a node may at any time set the quorum that no committee reaches. The step is
accepted whatever the oracle holds and wherever the clock stands, and what was handed over for the
current slot is taken back if there is still time. From then on, and until somebody sets another
quorum, nothing is agreed on and nothing is handed over: whatever settles the votes finds no winner.

## Main definitions

* `Node.Administered`: the administrator of a node holds its roles in the engine
* `Node.Silent`: events tell of no agreement and of no report that is handed over

## Main results

* `Node.administered_of_create`, `Simulation.administered_play`: the administrator keeps the roles
* `Engine.disable_accepted`: what disabling agreement does
* `Simulation.silent_while_disabled`: disabled agreement stays disabled
-/

namespace ReportQuorum

open ReportHandler (Willing willing_reportLog)

/-! ### The roles of the administrator -/

theorem RoleTable.holds_insert_self (t : RoleTable) (role : Role) (account : Address) :
    (t.insert role account).holds role account = true :=
  holds_iff.mpr (mem_put.mpr (.inl rfl))

theorem RoleTable.holds_insert {t : RoleTable} {role role' : Role} {account account' : Address}
    (h : t.holds role account = true) : (t.insert role' account').holds role account = true :=
  holds_iff.mpr (mem_put.mpr (.inr (holds_iff.mp h)))

theorem Oracle.mem_submittedIn {events : List Oracle.Event} {refSlot deadline : Word}
    {report : Digest} (h : .reportSubmitted refSlot report deadline ∈ events) :
    ⟨refSlot, report⟩ ∈ submittedIn events :=
  List.mem_filterMap.mpr ⟨_, h, rfl⟩

namespace Node

/-- The administrator of a node holds the roles in the engine that it was granted. -/
def Administered (n : Node) : Prop :=
  ∀ role ∈ engineRoles, n.engine.roles.holds role n.admin = true

variable {c : Config} {now : Word} {n : Node}

/-- After roles were granted in turn, the account holds all of them and those it held before. -/
theorem holds_of_grants {admin : Address} {roles : List Role} {e e' : Engine (Oracle ReportLog)}
    (h : roles.foldlM (fun e role => engineStep (e.grantRole admin role admin)) e = .ok e') :
    ∀ role, e.roles.holds role admin = true ∨ role ∈ roles → e'.roles.holds role admin = true := by
  induction roles generalizing e with
  | nil =>
    rw [List.foldlM_nil, pure_eq_ok] at h
    subst h
    exact fun role hrole => hrole.resolve_right List.not_mem_nil
  | cons first roles ih =>
    rw [List.foldlM_cons, bind_eq_ok] at h
    obtain ⟨e₁, hfirst, hrest⟩ := h
    obtain ⟨-, rfl⟩ := Engine.grantRole_eq_ok.mp (engineStep_eq_ok.mp hfirst)
    intro role hrole
    refine ih hrest role ?_
    rw [Engine.emitIf_roles]
    obtain hheld | hmem := hrole
    · exact .inl (RoleTable.holds_insert hheld)
    · obtain rfl | hmem := List.mem_cons.mp hmem
      · exact .inl (RoleTable.holds_insert_self _ _ _)
      · exact .inr hmem

/-- Once the roles are granted, making the node goes on without touching them. -/
theorem administered_of_create (h : create c now = .ok n) : n.Administered := by
  have hstep : ∀ {e e' : Engine (Oracle ReportLog)} call {r}, call.isGrant = false →
      (e.perform now call).state = r.state → engineStep r = .ok e' → e'.roles = e.roles := by
    intro e e' call r hcall hr hok
    have hroles := (e.performed now call).roles_eq hcall
    rwa [hr, engineStep_eq_ok.mp hok] at hroles
  simp only [create, bind_eq_ok, mapError_eq_ok] at h
  obtain ⟨-, -, o, -, e₀, -, e₁, he₁, e₂, he₂, e₃, he₃, h⟩ := h
  have h₁ : ∀ role ∈ engineRoles, e₁.roles.holds role c.admin = true := fun role hrole =>
    holds_of_grants he₁ role (.inr hrole)
  have h₂ : e₂.roles = e₁.roles := by
    refine invariant_of_foldlM_eq_ok (P := fun e => e.roles = e₁.roles) ?_ rfl he₂
    intro e role e' he hok
    obtain ⟨o, -, rfl⟩ := marks_of_grantInOracle hok
    exact he
  have h₃ : e₃.roles = e₁.roles := by
    refine invariant_of_foldlM_eq_ok (P := fun e => e.roles = e₁.roles) ?_ h₂ he₃
    intro e m e' he hok
    exact (hstep (.addMember c.admin m c.quorum) rfl rfl hok).trans he
  suffices hroles : n.admin = c.admin ∧ n.engine.roles = e₁.roles by
    intro role hrole
    rw [hroles.1, hroles.2]
    exact h₁ role hrole
  cases hinitial : c.initialEpoch with
  | none =>
    rw [hinitial] at h
    obtain ⟨e₄, he₄, h⟩ := bind_eq_ok.mp h
    obtain rfl := pure_eq_ok.mp h
    obtain rfl := pure_eq_ok.mp he₄
    exact ⟨rfl, h₃⟩
  | some epoch =>
    rw [hinitial] at h
    obtain ⟨e₄, he₄, h⟩ := bind_eq_ok.mp h
    obtain rfl := pure_eq_ok.mp h
    exact ⟨rfl, (hstep (.updateInitialEpoch c.admin epoch) rfl rfl he₄).trans h₃⟩

end Node

/-! ### Disabling agreement -/

namespace Engine

theorem reached_of_mem_outcomesOf {events : List Event} {refSlot : Word} {report : Digest}
    (h : ⟨refSlot, some report⟩ ∈ outcomesOf events) :
    ∃ support, .consensusReached refSlot report support ∈ events := by
  obtain ⟨event, hmem, houtcome⟩ := List.mem_filterMap.mp h
  cases event with
  | consensusReached slot digest support =>
    obtain ⟨rfl, ⟨⟩⟩ := Outcome.mk.inj (Option.some.inj houtcome)
    exact ⟨support, hmem⟩
  | consensusLost slot => cases houtcome
  | _ => cases houtcome

variable {η φ : Type} [ReportHandler η φ] {e : Engine (Oracle η)} {caller : Address}

/-- An engine whose oracle holds what is noted accepts it that agreement is disabled. What is noted
afterwards is what the votes say. -/
theorem disable_accepted (now : Word) (hwilling : Willing η) (h : e.Mirrored)
    (hrole : e.roles.holds .disableConsensus caller = true)
    (hsize : e.roster.size < UInt64.size - 1) :
    ∃ e', e.disableConsensus (ε := Oracle.Error φ) now caller = ⟨.ok (), e'⟩ ∧
      e'.quorum = Quorum.unreachable ∧ e'.roster = e.roster ∧ e'.Level now := by
  have hmay : e.MaySetQuorum caller Quorum.unreachable := maySetQuorum_unreachable hrole
  have hchange : e.withQuorum (ε := Oracle.Error φ) caller Quorum.unreachable =
      .ok (e.requorum Quorum.unreachable) := withQuorum_eq_ok.mpr ⟨hmay, rfl⟩
  have hcall : e.disableConsensus (ε := Oracle.Error φ) now caller =
      e.restoreOnError ((e.requorum Quorum.unreachable).settleIfActive now) := by
    rw [disableConsensus, setQuorum, hchange, reform]
  rw [hcall, settleIfActive, requorum_schedule]
  cases hactive : e.schedule.isActive now with
  | false =>
    refine ⟨e.requorum Quorum.unreachable, rfl, requorum_quorum _, requorum_roster _, ?_⟩
    intro f hopen
    have hcurrent := (Schedule.frameAt_eq_ok.mp hopen.current).1
    rw [requorum_schedule, hactive] at hcurrent
    cases hcurrent
  | true =>
    obtain ⟨f, hf⟩ := Schedule.exists_frameAt hactive
    have hamends : e.Amends now (.disableConsensus caller) (e.requorum Quorum.unreachable) true :=
      hactive ▸ .disableConsensus hmay
    have h₁ : (e.requorum Quorum.unreachable).Mirrored :=
      h.of_keeps hamends.keeps (hamends.named h.named)
    -- Nobody wins, so the oracle is at most asked to give back what it was handed.
    have hnone : ∀ refSlot, (e.requorum Quorum.unreachable).winnerFor refSlot = none :=
      winnerFor_eq_none (by simp) (by simpa using hsize)
    have hs := (e.requorum Quorum.unreachable).settled (ε := Oracle.Error φ) now
    have haccepted := hs.accepted hwilling h₁ fun {refSlot v} winner => by
      rw [hnone] at winner
      cases winner
    rw [if_pos rfl]
    generalize (e.requorum Quorum.unreachable).settle (ε := Oracle.Error φ) now = r
      at hs haccepted
    obtain ⟨result, e'⟩ := r
    obtain rfl | ⟨cause, herror, -⟩ := haccepted
    · have hvotes := hs.sameVotes
      exact ⟨e', rfl, hvotes.quorum.trans (requorum_quorum _),
        hvotes.roster.trans (requorum_roster _), hs.level⟩
    · rw [requorum_schedule, hf] at herror
      cases herror

/-- While agreement is disabled, no call reaches one. -/
theorem Performed.not_reached {π ε : Type} [ReportProcessor π ε] {e : Engine π} {now : Word}
    {c : Command π} {r : Reply (Error ε) (Engine π) (Option π)} (h : e.Performed now c r)
    (hquorum : r.state.quorum = Quorum.unreachable)
    (hsize : r.state.roster.size < UInt64.size - 1) {events : List Event}
    (hevents : r.state.events = e.events ++ events) (refSlot : Word) (report : Digest)
    (support : Word) : .consensusReached refSlot report support ∉ events := by
  intro hmem
  obtain ⟨e₁, f, v, -, -, winner, -, -, -, hsame, -⟩ := h.reached hevents hmem
  rw [winnerFor_eq_none (hsame.quorum ▸ hquorum) (hsame.roster ▸ hsize)] at winner
  cases winner

end Engine

/-! ### Plays while agreement is disabled -/

namespace Node

/-- Events tell of no agreement and of no report that is handed over. -/
structure Silent (events : List Event) : Prop where
  reached : ∀ refSlot report support,
    .engine (.consensusReached refSlot report support) ∉ events
  submitted : ∀ refSlot report deadline,
    .oracle (.reportSubmitted refSlot report deadline) ∉ events

theorem Silent.append {events events' : List Event} (h : Silent events) (h' : Silent events') :
    Silent (events ++ events') where
  reached _ _ _ hmem :=
    (List.mem_append.mp hmem).elim (h.reached _ _ _) (h'.reached _ _ _)
  submitted _ _ _ hmem :=
    (List.mem_append.mp hmem).elim (h.submitted _ _ _) (h'.submitted _ _ _)

end Node

namespace Simulation

open Scenario (Step)

variable {s s' : State} {step : Step} {p : Progress}

/-- No step of a script touches the roles. -/
theorem administered_taken (h : s.node.Administered) (htaken : Taken s step s') :
    s'.node.Administered := by
  have hroles : s'.node.admin = s.node.admin ∧ s'.node.engine.roles = s.node.engine.roles := by
    cases htaken with
    | rested now => exact ⟨rfl, rfl⟩
    | called c hc =>
      refine ⟨rfl, (s.node.engine.performed s.now c).roles_eq ?_⟩
      cases c <;> first | rfl | cases hc
    | replanned epochs slots =>
      exact ⟨rfl, (s.node.engine.performed s.now (.setFrameConfig _ epochs slots)).roles_eq rfl⟩
    | started => exact ⟨rfl, rfl⟩
  intro role hrole
  rw [hroles.1, hroles.2]
  exact h role hrole

theorem administered_play (h : p.state.node.Administered) (index : Nat) (steps : List Step) :
    (p.play index steps).state.node.Administered := by
  induction steps generalizing p index with
  | nil => exact h
  | cons step steps ih =>
    have hnext := administered_taken h (taken_apply p.state step)
    exact ih (p := p.next index step) hnext (index + 1)

/-- While agreement is disabled, a step tells of no agreement. Then it hands over no report either,
since both sides tell of the same outcomes. -/
theorem silent_taken (h : s.node.engine.Mirrored) (hengine : s.node.engine.events = [])
    (horacle : s.node.oracle.events = []) (htaken : Taken s step s')
    (hquorum : s'.node.engine.quorum = Quorum.unreachable)
    (hsize : s'.node.engine.roster.size < UInt64.size - 1) : Node.Silent s'.node.pending := by
  have hreached : ∀ refSlot report support,
      .consensusReached refSlot report support ∉ s'.node.engine.events := by
    cases htaken with
    | rested now => simp [hengine]
    | called c hc =>
      exact (s.node.engine.performed s.now c).not_reached hquorum hsize (by rw [hengine]; rfl)
    | replanned epochs slots =>
      exact (s.node.engine.performed s.now (.setFrameConfig _ epochs slots)).not_reached hquorum
        hsize (by rw [hengine]; rfl)
    | started => simp [hengine]
  have hsubmitted : Oracle.submittedIn s'.node.oracle.events = [] := by
    change Oracle.submittedIn s'.node.engine.processor.events = []
    have hnothing : Oracle.submittedIn s.node.engine.processor.events = [] :=
      congrArg Oracle.submittedIn horacle
    cases dealt_taken h htaken with
    | nothing told _ => rw [told.submitted, hnothing, List.append_nil]
    | outcome b _ told _ =>
      obtain ⟨refSlot, report⟩ := b
      cases report with
      | none => rw [told.submitted, hnothing]; rfl
      | some report =>
        have hmem : ⟨refSlot, some report⟩ ∈ Engine.outcomesOf s'.node.engine.events := by
          rw [told.outcomes]
          exact List.mem_append_right _ (List.mem_singleton_self _)
        obtain ⟨support, hevent⟩ := Engine.reached_of_mem_outcomesOf hmem
        exact absurd hevent (hreached refSlot report support)
  constructor
  · simpa [Node.pending] using hreached
  · intro refSlot report deadline hmem
    have hevent : .reportSubmitted refSlot report deadline ∈ s'.node.oracle.events := by
      simpa [Node.pending] using hmem
    have hlisted := Oracle.mem_submittedIn hevent
    rw [hsubmitted] at hlisted
    cases hlisted

namespace Progress.Rested

/-- As long as agreement stays disabled, a play tells of none and of no report handed over. -/
theorem silent_play (h : p.Rested) (index : Nat) (steps : List Step)
    (hoff : ∀ done, done <+: steps → done ≠ [] →
      (p.play index done).state.node.engine.quorum = Quorum.unreachable ∧
        (p.play index done).state.node.engine.roster.size < UInt64.size - 1) :
    ∃ told, (p.play index steps).events = p.events ++ told ∧ Node.Silent told := by
  induction steps generalizing p index with
  | nil => exact ⟨[], (List.append_nil _).symm, ⟨nofun, nofun⟩⟩
  | cons step steps ih =>
    obtain ⟨hquorum, hsize⟩ := hoff [step] (by simp) (by simp)
    have hfirst : Node.Silent (apply p.state step).state.node.pending :=
      silent_taken h.mirrored h.events_eq_nil.1 h.events_eq_nil.2 (taken_apply p.state step)
        hquorum hsize
    obtain ⟨told, hevents, htold⟩ := ih (h.next index step) (index + 1)
      fun done hdone _ => hoff (step :: done) (List.cons_prefix_cons.mpr ⟨rfl, hdone⟩) (by simp)
    refine ⟨_ ++ told, ?_, hfirst.append htold⟩
    rw [Progress.play, hevents, Progress.next, List.append_assoc]

end Progress.Rested

/-- In every play against a new node, whatever its steps and however its clock moves, a step that
disables agreement is accepted. If there is an open frame right after it, the oracle holds no report
for its reference slot. As long as no later step changes the quorum, no event tells of an agreement
or of a report that is handed over. -/
theorem silent_while_disabled {c : Node.Config} {now : Word} {n : Node}
    (h : Node.create c now = .ok n) (before : List Step)
    (hsize : ((Progress.start now n).play 0 before).state.node.engine.roster.size <
      UInt64.size - 1) :
    let p := (Progress.start now n).play 0 before
    let q := p.next before.length .disableConsensus
    (apply p.state .disableConsensus).result = .ok () ∧
      q.state.node.engine.quorum = Quorum.unreachable ∧
      (∀ f d, q.state.node.engine.Open q.state.now f →
        q.state.node.oracle.held ≠ some ⟨f.refSlot, d⟩) ∧
      ∀ later : List Step,
        (∀ done, done <+: later →
          let e := (q.play (before.length + 1) done).state.node.engine
          e.quorum = q.state.node.engine.quorum ∧ e.roster.size < UInt64.size - 1) →
        ∃ told, (q.play (before.length + 1) later).events = p.events ++ told ∧
          Node.Silent told := by
  intro p q
  have hrested : p.Rested := (Progress.rested_start h).play 0 before
  have hadministered : p.state.node.Administered :=
    administered_play (p := Progress.start now n) (Node.administered_of_create h :) 0 before
  obtain ⟨e', hcall, hquorum, hroster, hlevel⟩ :=
    Engine.disable_accepted p.state.now willing_reportLog hrested.mirrored
      (hadministered _ (by decide)) hsize
  have happly : apply p.state .disableConsensus =
      ⟨.ok (), { p.state with node.engine := e' }⟩ := by
    rw [apply, hcall]
    rfl
  have hq : q.state = { p.state with
      node.engine := { e' with processor := e'.processor.drained }.drained } := by
    change { (apply p.state .disableConsensus).state with
      node := (apply p.state .disableConsensus).state.node.drained } = _
    rw [happly]
    rfl
  have hsize' : q.state.node.engine.roster.size < UInt64.size - 1 := by
    rw [hq]
    exact hroster ▸ hsize
  have hquorum' : q.state.node.engine.quorum = Quorum.unreachable := by
    rw [hq]
    exact hquorum
  have hlevel' : q.state.node.engine.Level q.state.now := by
    rw [hq]
    exact fun f hopen => hlevel f ⟨hopen.current, hopen.timely, hopen.unlocked⟩
  have hrested' : q.Rested := hrested.next before.length .disableConsensus
  refine ⟨by rw [happly], hquorum', ?_, ?_⟩
  · intro f d hopen hheld
    -- Nobody wins, so nothing is noted, and the oracle holds what is noted.
    have hnone := hlevel' f hopen
    rw [Engine.winnerFor_eq_none hquorum' hsize', Option.map_none] at hnone
    have hnoted := Tally.agreedFor_eq_some_iff.mpr (hrested'.mirrored.agreed.trans hheld)
    rw [← hnone] at hnoted
    cases hnoted
  · intro later hkept
    refine hrested.silent_play before.length (.disableConsensus :: later) ?_
    intro done hdone hsome
    obtain rfl | ⟨rest, rfl, hrest⟩ := List.prefix_cons_iff.mp hdone
    · exact absurd rfl hsome
    · obtain ⟨hsame, hfew⟩ := hkept rest hrest
      exact ⟨hsame.trans hquorum', hfew⟩

/-- Two members of three vote for a report, and then agreement is disabled. Neither the third vote,
nor a new layout of the frames, nor the next frame, where all three members vote for the report,
makes up for that. -/
theorem silent_despite_unanimity :
    let member (i : Nat) : Address := .ofLowByte (.ofNat (i + 1))
    let c := Node.Config.sample member 3
    let report := Octets.replicate 32 7
    let vote (i : Nat) : Step := .submitReport (member i) report none none
    let before : List Step := [vote 0, vote 1]
    let later : List Step :=
      [vote 2, .setFrameConfig 100 0, .advanceSlots 3200, vote 0, vote 1, vote 2]
    ∃ n, Node.create c c.startTime = .ok n ∧
      let p := (Progress.start c.startTime n).play 0 before
      p.state.node.oracle.held = some ⟨31, report⟩ ∧
        (apply p.state .disableConsensus).result = .ok () ∧
        let q := p.next before.length .disableConsensus
        (∀ d, q.state.node.oracle.held ≠ some ⟨31, d⟩) ∧
          let last := q.play (before.length + 1) later
          last.state.node.engine.tally.variants 3231 last.state.node.engine.roster =
              [⟨report, 3⟩] ∧
            ∃ told, last.events = p.events ++ told ∧ Node.Silent told := by
  intro member c report vote before later
  let p (n : Node) : Progress := (Progress.start c.startTime n).play 0 before
  let q (n : Node) : Progress := (p n).next before.length .disableConsensus
  let e (n : Node) (done : List Step) : Engine (Oracle ReportLog) :=
    ((q n).play (before.length + 1) done).state.node.engine
  have hplay : (Node.create c c.startTime).toOption.any (fun n => decide (
      (p n).state.node.oracle.held = some ⟨31, report⟩ ∧
        (p n).state.node.engine.roster.size < UInt64.size - 1 ∧
        ((q n).state.node.engine.schedule.frameAt (q n).state.now).toOption =
          some ⟨0, 31, 7231⟩ ∧
        (q n).state.node.engine.schedule.grid.slotAt (q n).state.now ≤ 7231 ∧
        ReportProcessor.isProcessing (q n).state.node.oracle 31 = false ∧
        (e n later).tally.variants 3231 (e n later).roster = [⟨report, 3⟩] ∧
        ∀ done ∈ later.inits, (e n done).quorum = (q n).state.node.engine.quorum ∧
          (e n done).roster.size < UInt64.size - 1)) = true := by
    decide +kernel
  obtain ⟨n, hmade, hheld, hsize, hf, htimely, hunlocked, hvariants, hkept⟩ := exists_of_any hplay
  dsimp only [e, q, p] at hheld hsize hf htimely hunlocked hvariants hkept
  obtain ⟨hok, -, hwithdrawn, hsilent⟩ := silent_while_disabled hmade before hsize
  refine ⟨n, hmade, hheld, hok, ?_, hvariants, ?_⟩
  · exact fun d => hwithdrawn ⟨0, 31, 7231⟩ d ⟨toOption_eq_some.mp hf, htimely, hunlocked⟩
  · exact hsilent later fun done hdone => hkept done ((List.mem_inits ..).mpr hdone)

end Simulation

end ReportQuorum
