import ReportQuorum.Proofs.Disabling
import ReportQuorum.Proofs.SameQuorum

/-!
# The configurations of which nodes are made

A node is made of its configuration step by step, and every step may refuse it. The administrator is
never refused a role, since it begins with the one that all grants need; a new oracle never objects
to the initial epoch, since it has marked nothing; and settling the votes does nothing while there
are none, even if the clock already stands in the last epoch of all. So what decides is the
configuration, and the clock only if there is an initial epoch to set.

## Main definitions

* `Node.Seatable`: a committee that can be seated under a quorum
* `Node.Config.Sound`: a configuration of which a node can be made
* `Node.Created`: what a node is when it has just been made
* `Node.InMaking`: what its engine is before that

## Main results

* `Engine.addMember_unvoted`, `Engine.updateInitialEpoch_eq_ok`: when an engine accepts a member
  before there are votes, and an initial epoch
* `Node.InMaking.seat`: which committees are seated
* `Node.create_iff_sound`: which configurations make nodes, and what they make
-/

namespace ReportQuorum

namespace Oracle

variable {η φ : Type} {o : Oracle η} {setup : Setup} {handler : η}

/-- An oracle is made on every grid that can be used, if no address is zero. -/
theorem exists_create : (∃ o, create (φ := φ) setup handler = .ok o) ↔
    setup.address ≠ Octets.zero ∧ setup.engine ≠ Octets.zero ∧ setup.admin ≠ Octets.zero ∧
      setup.grid.validate = .ok () := by
  constructor
  · rintro ⟨o, h⟩
    rw [create, refusal_eq_ok (by simp)] at h
    obtain ⟨hnames, h⟩ := h
    simp only [Bool.or_eq_true, Octets.isZero_iff, not_or] at hnames
    obtain ⟨⟨haddress, hengine⟩, hadmin⟩ := hnames
    refine ⟨haddress, hengine, hadmin, ?_⟩
    split at h
    · cases h
    next hgrid => exact hgrid
  · rintro ⟨haddress, hengine, hadmin, hgrid⟩
    rw [create, if_neg (by simp [haddress, hengine, hadmin]), hgrid]
    exact ⟨_, rfl⟩

/-- A new oracle has its name, and one administrator. -/
theorem named_of_create (h : create (φ := φ) setup handler = .ok o) :
    o.address = setup.address ∧ o.roles = .ofAdmin setup.admin := by
  rw [create, refusal_eq_ok (by simp)] at h
  obtain ⟨-, h⟩ := h
  split at h
  · cases h
  · cases h
    exact ⟨rfl, rfl⟩

end Oracle

namespace Engine

variable {π ε : Type} {e e' : Engine π} {now epoch quorum : Word} {caller member : Address}

/-- An engine is made with every schedule, if no address is zero. -/
theorem exists_create [ReportProcessor π ε] {setup : Setup} {p : π} :
    (∃ e, create setup p = .ok e) ↔
      setup.address ≠ Octets.zero ∧ setup.admin ≠ Octets.zero ∧
        ReportProcessor.address p ≠ Octets.zero ∧
        ∃ s, Schedule.dormant setup.grid setup.epochsPerFrame setup.fastLaneSlots = .ok s := by
  constructor
  · rintro ⟨e, h⟩
    have hschedule := (created_of_create h).schedule
    rw [create, refusal_eq_ok (by simp), refusal_eq_ok (by simp)] at h
    obtain ⟨hnames, hprocessor, -⟩ := h
    simp only [Bool.or_eq_true, Octets.isZero_iff, not_or] at hnames hprocessor
    exact ⟨hnames.1, hnames.2, hprocessor, _, hschedule⟩
  · rintro ⟨haddress, hadmin, hprocessor, s, hschedule⟩
    rw [create, if_neg (by simp [haddress, hadmin]), if_neg (by simp [hprocessor]), hschedule]
    exact ⟨_, rfl⟩

/-- The engine with one more member, before the quorum is set. -/
def joined (e : Engine π) (member : Address) (quorum : Word) : Engine π :=
  let roster : Roster := ⟨e.roster.seats ++ [{ member := member }]⟩
  { e with roster }.emit (.memberAdded member roster.count quorum)

/-- The engine with another initial epoch. An event tells of it if it differs from the old one. -/
def startingAt (e : Engine π) (epoch : Word) : Engine π :=
  let schedule : Schedule := { e.schedule with layout.initialEpoch := epoch }
  { e with schedule }.emitIf (epoch != e.schedule.layout.initialEpoch) (frameConfigEvent schedule)

@[simp] theorem startingAt_schedule : (e.startingAt epoch).schedule =
    { e.schedule with layout.initialEpoch := epoch } := by
  simp [startingAt]

variable [ReportProcessor π ε]

/-- A change of the committee succeeds if it is accepted and the votes can be settled after it. -/
theorem reform_eq_ok {change : Except (Error ε) (Engine π)} :
    e.reform now change = ⟨.ok (), e'⟩ ↔
      ∃ e₁, change = .ok e₁ ∧ e₁.settleIfActive now = ⟨.ok (), e'⟩ := by
  cases change with
  | error err => simp [reform]
  | ok e₁ =>
    simp only [reform, Except.ok.injEq, exists_eq_left']
    generalize e₁.settleIfActive now = r
    obtain ⟨_ | _, e₂⟩ := r <;> simp [restoreOnError]

/-- Before there are votes, a member is seated without anything to settle. -/
theorem addMember_unvoted (h : e.tally = {}) :
    e.addMember (ε := ε) now caller member quorum = ⟨.ok (), e'⟩ ↔
      e.roles.holds .manageMembersAndQuorum caller = true ∧ member ∉ e.roster.members ∧
        member ≠ Octets.zero ∧ (e.joined member quorum).MaySetQuorum caller quorum ∧
        (e.joined member quorum).requorum quorum = e' := by
  have htally : ((e.joined member quorum).requorum quorum).tally = {} :=
    (requorum_tally (e := e.joined member quorum) quorum).trans h
  -- In the last epoch of all frames have begun, so the votes may be settled even now.
  have hsettled := settleIfActive_of_level (level_of_unvoted htally now)
  simp only [addMember, reform_eq_ok, bind_eq_ok, mapError_eq_ok, demand_eq_ok,
    Roster.insert_eq_ok, withQuorum_eq_ok]
  constructor
  · rintro ⟨_, ⟨_, hrole, _, ⟨hnew, hzero, rfl⟩, hmay, rfl⟩, hdone⟩
    exact ⟨hrole, hnew, hzero, hmay, (Reply.mk.inj (hsettled.symm.trans hdone)).2⟩
  · rintro ⟨hrole, hnew, hzero, hmay, rfl⟩
    exact ⟨_, ⟨(), hrole, _, ⟨hnew, hzero, rfl⟩, hmay, rfl⟩, hsettled⟩

/-- An initial epoch is set by a holder of the role before frames begin, unless the processor has
passed it. -/
theorem updateInitialEpoch_eq_ok :
    e.updateInitialEpoch (ε := ε) now caller epoch = ⟨.ok (), e'⟩ ↔
      e.roles.holds .defaultAdmin caller = true ∧ epoch ≠ 0 ∧ e.schedule.isActive now = false ∧
        ReportProcessor.processingSlot e.processor ≤
          (e.startingAt epoch).schedule.initialFrame.refSlot ∧
        e.startingAt epoch = e' := by
  simp only [updateInitialEpoch, Reply.ofExcept_eq_ok, bind_eq_ok, mapError_eq_ok, demand_eq_ok,
    Prod.exists, Schedule.setInitialEpoch_eq_ok, startingAt_schedule]
  constructor
  · rintro ⟨-, hrole, _, _, ⟨hzero, hactive, rfl, rfl⟩, h⟩
    rw [refusal_eq_ok (by simp), UInt64.not_lt] at h
    exact ⟨hrole, hzero, hactive, h.1, pure_eq_ok.mp h.2⟩
  · rintro ⟨hrole, hzero, hactive, hpassed, rfl⟩
    refine ⟨(), hrole, _, _, ⟨hzero, hactive, rfl, rfl⟩, ?_⟩
    rw [refusal_eq_ok (by simp), UInt64.not_lt]
    exact ⟨hpassed, rfl⟩

end Engine

namespace Node

/-! ### Configurations -/

/-- A committee that can be seated under a quorum: nobody has two seats or no name, and the quorum
is a strict majority of the members, if there are any. -/
structure Seatable (quorum : Word) (members : List Address) : Prop where
  distinct : members.Nodup
  named : Octets.zero ∉ members
  majority : members ≠ [] → members.length / 2 + 1 ≤ quorum.toNat

instance (quorum : Word) (members : List Address) : Decidable (Seatable quorum members) :=
  decidable_of_iff (members.Nodup ∧ Octets.zero ∉ members ∧
      (members ≠ [] → members.length / 2 + 1 ≤ quorum.toNat))
    ⟨fun h => ⟨h.1, h.2.1, h.2.2⟩, fun h => ⟨h.distinct, h.named, h.majority⟩⟩

/-- A configuration of which a node can be made at a moment. -/
structure Config.Sound (c : Config) (now : Word) : Prop where
  slots : 0 < c.grid.slotsPerEpoch
  seconds : 0 < c.grid.secondsPerSlot
  admin : c.admin ≠ Octets.zero
  engine : c.engine ≠ Octets.zero
  oracle : c.oracle ≠ Octets.zero
  epochs : 0 < c.epochsPerFrame
  fastLane : c.fastLaneSlots.toNat ≤
    min (c.epochsPerFrame.toNat * c.grid.slotsPerEpoch.toNat) (UInt64.size - 1)
  committee : Seatable c.quorum c.members
  /-- Without an initial epoch the clock does not matter. -/
  initialEpoch : ∀ epoch ∈ c.initialEpoch, 0 < epoch ∧ c.grid.epochAt now < c.grid.farFutureEpoch

/-- Only the initial epoch that there is has to be looked at. -/
instance (c : Config) (now : Word) : Decidable (c.Sound now) :=
  decidable_of_iff
    ((0 < c.grid.slotsPerEpoch ∧ 0 < c.grid.secondsPerSlot) ∧
      (c.admin ≠ Octets.zero ∧ c.engine ≠ Octets.zero ∧ c.oracle ≠ Octets.zero) ∧
      (0 < c.epochsPerFrame ∧ c.fastLaneSlots.toNat ≤
        min (c.epochsPerFrame.toNat * c.grid.slotsPerEpoch.toNat) (UInt64.size - 1)) ∧
      Seatable c.quorum c.members ∧
      c.initialEpoch.all fun epoch =>
        decide (0 < epoch ∧ c.grid.epochAt now < c.grid.farFutureEpoch)) <| by
    simp only [Option.all_eq_true, decide_eq_true_eq]
    constructor
    · rintro ⟨hgrid, hnames, hlengths, hcommittee, hinitial⟩
      exact ⟨hgrid.1, hgrid.2, hnames.1, hnames.2.1, hnames.2.2, hlengths.1, hlengths.2,
        hcommittee, hinitial⟩
    · intro h
      exact ⟨⟨h.slots, h.seconds⟩, ⟨h.admin, h.engine, h.oracle⟩, ⟨h.epochs, h.fastLane⟩,
        h.committee, h.initialEpoch⟩

/-- What a node is when it has just been made. -/
structure Created (n : Node) (c : Config) : Prop where
  seats : n.engine.roster.seats = c.members.map fun m => { member := m, vote := Vote.blank }
  quorum : n.engine.quorum = if c.members = [] then 0 else c.quorum
  schedule : n.engine.schedule = ⟨c.grid,
    ⟨c.initialEpoch.getD c.grid.farFutureEpoch, c.epochsPerFrame, c.fastLaneSlots⟩⟩
  tally : n.engine.tally = {}
  report : n.oracle.report.report = Octets.zero

variable {c : Config} {now quorum : Word} {granted : List Role} {seated members : List Address}
  {member : Address} {e e' : Engine (Oracle ReportLog)} {n : Node}

/-! ### Committees -/

theorem seatable_nil : Seatable quorum [] := ⟨List.nodup_nil, List.not_mem_nil, absurd rfl⟩

/-- Whoever sits first could be seated alone. -/
theorem Seatable.of_append (h : Seatable quorum (seated ++ members)) : Seatable quorum seated where
  distinct := h.distinct.sublist (List.sublist_append_left _ _)
  named hzero := h.named (List.mem_append_left _ hzero)
  majority hne := by
    have hall := h.majority (List.append_ne_nil_of_left_ne_nil hne _)
    rw [List.length_append] at hall
    omega

/-- One more member can be seated if it is new and has a name, and the quorum is high enough. -/
theorem seatable_concat : Seatable quorum (seated ++ [member]) ↔
    Seatable quorum seated ∧ member ∉ seated ∧ member ≠ Octets.zero ∧
      (seated.length + 1) / 2 + 1 ≤ quorum.toNat := by
  have hnodup : (seated ++ [member]).Nodup ↔ member ∉ seated ∧ seated.Nodup :=
    (List.perm_append_singleton member seated).nodup_iff.trans List.nodup_cons
  constructor
  · intro h
    refine ⟨h.of_append, (hnodup.mp h.distinct).1, ?_, ?_⟩
    · rintro rfl
      exact h.named (by simp)
    · simpa using h.majority (by simp)
  · rintro ⟨h, hnew, hzero, hmajority⟩
    refine ⟨hnodup.mpr ⟨hnew, h.distinct⟩, ?_, fun _ => by simpa using hmajority⟩
    rw [List.mem_append, List.mem_singleton, not_or]
    exact ⟨h.named, hzero.symm⟩

/-! ### The engine of a node in the making -/

/-- What the engine of a node is while the node is made: the administrator holds some roles, and some
members are seated. -/
structure InMaking (c : Config) (granted : List Role) (seated : List Address)
    (e : Engine (Oracle ReportLog)) : Prop where
  schedule : e.schedule =
    ⟨c.grid, ⟨c.grid.farFutureEpoch, c.epochsPerFrame, c.fastLaneSlots⟩⟩
  seats : e.roster.seats = seated.map fun m => { member := m, vote := Vote.blank }
  quorum : e.quorum = if seated = [] then 0 else c.quorum
  tally : e.tally = {}
  roles : ∀ role ∈ granted, e.roles.holds role c.admin = true
  oracleAdmin : e.processor.roles.holds .defaultAdmin c.admin = true
  report : e.processor.report.report = Octets.zero
  processingSlot : e.processor.processingSlot = 0

/-- A new engine over a new oracle. -/
theorem inMaking_of_create {o : Oracle ReportLog}
    (ho : Oracle.create (φ := Empty) (oracleSetup c) ({} : ReportLog) = .ok o)
    (he : Engine.create (engineSetup c) o = .ok e) : InMaking c [.defaultAdmin] [] e := by
  have hmade := Oracle.created_of_create ho
  have hcreated := Engine.created_of_create he
  refine ⟨(Schedule.dormant_eq_ok.mp hcreated.schedule).2.2.symm, ?_, hcreated.quorum,
    hcreated.tally, ?_, ?_, ?_, ?_⟩
  · rw [hcreated.roster]
    rfl
  · rw [hcreated.roles]
    simp [RoleTable.holds, RoleTable.ofAdmin, engineSetup]
  · rw [hcreated.processor, (Oracle.named_of_create ho).2]
    simp [RoleTable.holds, RoleTable.ofAdmin, oracleSetup]
  · rw [hcreated.processor, hmade.report]
  · rw [hcreated.processor, hmade.processingSlot]
    rfl

namespace InMaking

/-- The administrator is granted a role in the engine. -/
theorem exists_grant (h : InMaking c granted seated e) (hadmin : .defaultAdmin ∈ granted)
    (role : Role) : ∃ e', engineStep (e.grantRole c.admin role c.admin) = .ok e' ∧
      InMaking c granted seated e' := by
  refine ⟨_, engineStep_eq_ok.mpr (Engine.grantRole_eq_ok.mpr ⟨h.roles _ hadmin, rfl⟩), ?_⟩
  refine ⟨?_, ?_, ?_, ?_, fun role' hrole => ?_, ?_, ?_, ?_⟩
  · simpa using h.schedule
  · simpa using h.seats
  · simpa using h.quorum
  · simpa using h.tally
  · rw [Engine.emitIf_roles]
    exact RoleTable.holds_insert (h.roles role' hrole)
  · simpa using h.oracleAdmin
  · simpa using h.report
  · simpa using h.processingSlot

/-- The administrator is granted a role in the oracle. -/
theorem exists_grantInOracle (h : InMaking c granted seated e) (role : Role) :
    ∃ e', grantInOracle c.admin e role = .ok e' ∧ InMaking c granted seated e' := by
  let o := { e.processor with roles := e.processor.roles.insert role c.admin }.emitIf
    (!e.processor.roles.holds role c.admin) (.roleGranted role c.admin c.admin)
  have hgranted : e.processor.grantRole (φ := Empty) c.admin role c.admin = ⟨.ok (), o⟩ :=
    Oracle.grantRole_eq_ok.mpr ⟨h.oracleAdmin, rfl⟩
  refine ⟨{ e with processor := o }, by rw [grantInOracle, hgranted], ?_⟩
  refine { h with oracleAdmin := ?_, report := ?_, processingSlot := ?_ }
  · have hroles : o.roles = e.processor.roles.insert role c.admin := Oracle.emitIf_roles _ _
    change o.roles.holds _ _ = true
    rw [hroles]
    exact RoleTable.holds_insert h.oracleAdmin
  · simpa [o] using h.report
  · simpa [o] using h.processingSlot

/-- The administrator is granted all roles. -/
theorem exists_grants (h : InMaking c [.defaultAdmin] [] e) : ∃ e₁ e₂,
    engineRoles.foldlM (fun e role => engineStep (e.grantRole c.admin role c.admin)) e = .ok e₁ ∧
      oracleRoles.foldlM (grantInOracle c.admin) e₁ = .ok e₂ ∧
      InMaking c (.defaultAdmin :: engineRoles) [] e₂ := by
  obtain ⟨e₁, he₁, h₁⟩ := exists_foldlM_eq_ok
    (fun e role (he : InMaking c [.defaultAdmin] [] e) => he.exists_grant (by simp) role)
    engineRoles h
  have hall : InMaking c (.defaultAdmin :: engineRoles) [] e₁ := by
    refine { h₁ with roles := fun role hrole => ?_ }
    obtain rfl | hrole := List.mem_cons.mp hrole
    · exact h₁.roles _ (by simp)
    · exact holds_of_grants he₁ role (.inr hrole)
  obtain ⟨e₂, he₂, h₂⟩ := exists_foldlM_eq_ok
    (fun e role he => he.exists_grantInOracle role) oracleRoles hall
  exact ⟨e₁, e₂, he₁, he₂, h₂⟩

/-- A member is accepted if the committee with it can be seated. -/
theorem addMember_eq_ok (h : InMaking c (.defaultAdmin :: engineRoles) seated e)
    (hsize : seated.length + 1 < UInt64.size) :
    engineStep (e.addMember now c.admin member c.quorum) = .ok e' ↔
      (member ∉ seated ∧ member ≠ Octets.zero ∧
        (seated.length + 1) / 2 + 1 ≤ c.quorum.toNat) ∧
      (e.joined member c.quorum).requorum c.quorum = e' := by
  have hmembers : e.roster.members = seated := by
    simp [Roster.members, h.seats, Function.comp_def]
  have hcount : (e.joined member c.quorum).roster.count.toNat = seated.length + 1 := by
    have hjoined : (e.joined member c.quorum).roster.size = seated.length + 1 := by
      simp [Engine.joined, Engine.emit, Roster.size, h.seats]
    rw [Roster.count, hjoined]
    exact UInt64.toNat_ofNat_of_lt' hsize
  -- The first member brings the quorum, which may be the one that needs a role of its own.
  have hrole : e.roles.holds (Engine.quorumRole c.quorum) c.admin = true := by
    refine h.roles _ ?_
    rw [Engine.quorumRole]
    split <;> simp [engineRoles]
  have hmay : (e.joined member c.quorum).MaySetQuorum c.admin c.quorum ↔
      (seated.length + 1) / 2 + 1 ≤ c.quorum.toNat := by
    rw [← hcount, ← Quorum.toNat_least, ← UInt64.le_iff_toNat_le]
    exact ⟨fun hmay => hmay.majority, fun hmajority => ⟨hmajority, fun _ => hrole⟩⟩
  rw [engineStep_eq_ok, Engine.addMember_unvoted h.tally, hmembers, hmay]
  simp only [h.roles .manageMembersAndQuorum (by simp [engineRoles]), true_and, and_assoc]

/-- One more member is seated. -/
theorem joined (h : InMaking c granted seated e) (member : Address) :
    InMaking c granted (seated ++ [member]) ((e.joined member c.quorum).requorum c.quorum) := by
  refine ⟨?_, ?_, ?_, ?_, fun role hrole => ?_, ?_, ?_, ?_⟩
  · rw [Engine.requorum_schedule]
    exact h.schedule
  · rw [Engine.requorum_roster, List.map_append, ← h.seats]
    rfl
  · rw [Engine.requorum_quorum, if_neg (by simp)]
  · rw [Engine.requorum_tally]
    exact h.tally
  · rw [Engine.requorum_roles]
    exact h.roles role hrole
  · rw [Engine.requorum_processor]
    exact h.oracleAdmin
  · rw [Engine.requorum_processor]
    exact h.report
  · rw [Engine.requorum_processor]
    exact h.processingSlot

/-- A committee is seated exactly if it can be. -/
theorem seat (h : InMaking c (.defaultAdmin :: engineRoles) seated e)
    (hseated : Seatable c.quorum seated) (now : Word) (members : List Address)
    (hsize : (seated ++ members).length < UInt64.size) :
    (Seatable c.quorum (seated ++ members) → ∃ e', members.foldlM
      (fun e m => engineStep (e.addMember now c.admin m c.quorum)) e = .ok e') ∧
    ∀ e', members.foldlM (fun e m => engineStep (e.addMember now c.admin m c.quorum)) e = .ok e' →
      Seatable c.quorum (seated ++ members) ∧
        InMaking c (.defaultAdmin :: engineRoles) (seated ++ members) e' := by
  induction members generalizing seated e with
  | nil =>
    rw [List.append_nil]
    refine ⟨fun _ => ⟨e, rfl⟩, fun e' hdone => ?_⟩
    rw [List.foldlM_nil, pure_eq_ok] at hdone
    exact hdone ▸ ⟨hseated, h⟩
  | cons member members ih =>
    have hone : seated.length + 1 < UInt64.size := by
      rw [List.length_append, List.length_cons] at hsize
      omega
    rw [List.append_cons] at hsize ⊢
    -- Those seated so far can be, so it is the next member that decides whether it goes on.
    have hnext := fun hmay => ih (h.joined member) (seatable_concat.mpr ⟨hseated, hmay⟩) hsize
    simp only [List.foldlM_cons, bind_eq_ok, h.addMember_eq_ok hone]
    refine ⟨fun hall => ?_, ?_⟩
    · obtain ⟨-, hmay⟩ := seatable_concat.mp hall.of_append
      obtain ⟨e', hdone⟩ := (hnext hmay).1 hall
      exact ⟨e', _, ⟨hmay, rfl⟩, hdone⟩
    · rintro e' ⟨_, ⟨hmay, rfl⟩, hdone⟩
      exact (hnext hmay).2 e' hdone

/-- The initial epoch is set if frames do not begin by themselves. -/
theorem updateInitialEpoch_eq_ok (h : InMaking c (.defaultAdmin :: engineRoles) seated e)
    {epoch : Word} : engineStep (e.updateInitialEpoch now c.admin epoch) = .ok e' ↔
      (0 < epoch ∧ c.grid.epochAt now < c.grid.farFutureEpoch) ∧ e.startingAt epoch = e' := by
  -- The first reference slot is not one that a new oracle has passed.
  have hmark : ReportProcessor.processingSlot e.processor = 0 := h.processingSlot
  have hactive : e.schedule.isActive now = false ↔
      c.grid.epochAt now < c.grid.farFutureEpoch := by
    rw [h.schedule, Schedule.isActive, decide_eq_false_iff_not, UInt64.not_le]
  rw [engineStep_eq_ok, Engine.updateInitialEpoch_eq_ok, hactive, hmark, UInt64.pos_iff_ne_zero]
  simp only [h.roles .defaultAdmin (by simp), UInt64.zero_le, true_and, and_assoc]

theorem created_of_none (h : InMaking c granted c.members e) (hepoch : c.initialEpoch = none) :
    Created ⟨c.admin, e⟩ c := by
  refine ⟨h.seats, h.quorum, ?_, h.tally, h.report⟩
  rw [hepoch]
  exact h.schedule

theorem created_of_some (h : InMaking c granted c.members e) {epoch : Word}
    (hepoch : c.initialEpoch = some epoch) : Created ⟨c.admin, e.startingAt epoch⟩ c := by
  refine ⟨?_, ?_, ?_, ?_, ?_⟩
  · simpa [Engine.startingAt] using h.seats
  · simpa [Engine.startingAt] using h.quorum
  · rw [hepoch, Engine.startingAt_schedule, h.schedule]
    rfl
  · simpa [Engine.startingAt] using h.tally
  · simpa [oracle, Engine.startingAt] using h.report

end InMaking

/-! ### Nodes -/

/-- A sound configuration makes a node. -/
theorem exists_create (h : c.Sound now) (hsize : c.members.length < UInt64.size) :
    ∃ n, create c now = .ok n := by
  have hgrid : c.grid.validate = .ok () := TimeGrid.validate_eq_ok.mpr ⟨h.slots, h.seconds⟩
  have hlengths : Schedule.checkLengths c.grid c.epochsPerFrame c.fastLaneSlots = .ok () :=
    Schedule.checkLengths_eq_ok.mpr ⟨h.epochs, h.fastLane⟩
  obtain ⟨o, ho⟩ : ∃ o, Oracle.create (φ := Empty) (oracleSetup c) ({} : ReportLog) = .ok o :=
    Oracle.exists_create.mpr ⟨h.oracle, h.engine, h.admin, hgrid⟩
  have haddress : ReportProcessor.address o ≠ Octets.zero := by
    have hname : o.address ≠ Octets.zero := (Oracle.named_of_create ho).1 ▸ h.oracle
    exact hname
  obtain ⟨e₀, he₀⟩ : ∃ e₀, Engine.create (engineSetup c) o = .ok e₀ :=
    Engine.exists_create.mpr ⟨h.engine, h.admin, haddress, _,
      Schedule.dormant_eq_ok.mpr ⟨hgrid, hlengths, rfl⟩⟩
  obtain ⟨e₁, e₂, he₁, he₂, hmaking⟩ := (inMaking_of_create ho he₀).exists_grants
  have hseat := hmaking.seat seatable_nil now c.members hsize
  obtain ⟨e₃, he₃⟩ := hseat.1 h.committee
  have hseated : InMaking c _ c.members e₃ := (hseat.2 e₃ he₃).2
  simp only [create, bind_eq_ok, mapError_eq_ok]
  cases hepoch : c.initialEpoch with
  | none =>
    exact ⟨_, _, hgrid, o, ho, e₀, he₀, e₁, he₁, e₂, he₂, e₃, he₃, rfl⟩
  | some epoch =>
    have hstart := hseated.updateInitialEpoch_eq_ok.mpr ⟨h.initialEpoch epoch hepoch, rfl⟩
    exact ⟨_, _, hgrid, o, ho, e₀, he₀, e₁, he₁, e₂, he₂, e₃, he₃, bind_eq_ok.mpr ⟨_, hstart, rfl⟩⟩

/-- Only a sound configuration makes a node. -/
theorem sound_and_created (h : create c now = .ok n) (hsize : c.members.length < UInt64.size) :
    c.Sound now ∧ n.Created c := by
  simp only [create, bind_eq_ok, mapError_eq_ok] at h
  obtain ⟨_, hgrid, o, ho, e₀, he₀, e₁, he₁, e₂, he₂, e₃, he₃, h⟩ := h
  obtain ⟨hslots, hseconds⟩ := TimeGrid.validate_eq_ok.mp hgrid
  obtain ⟨horacle, hengine, hadmin, -⟩ := Oracle.exists_create.mp ⟨o, ho⟩
  obtain ⟨-, -, -, s, hschedule⟩ := Engine.exists_create.mp ⟨e₀, he₀⟩
  obtain ⟨-, hlengths, -⟩ := Schedule.dormant_eq_ok.mp hschedule
  obtain ⟨hepochs, hlane⟩ := Schedule.checkLengths_eq_ok.mp hlengths
  -- The grants succeed, so what was made by them is what they make.
  obtain ⟨e₁', e₂', hgrants, hgrants', hmaking⟩ := (inMaking_of_create ho he₀).exists_grants
  obtain rfl := Except.ok.inj (hgrants.symm.trans he₁)
  obtain rfl := Except.ok.inj (hgrants'.symm.trans he₂)
  obtain ⟨hcommittee, hseated⟩ := (hmaking.seat seatable_nil now c.members hsize).2 e₃ he₃
  suffices hstart : (∀ epoch ∈ c.initialEpoch,
      0 < epoch ∧ c.grid.epochAt now < c.grid.farFutureEpoch) ∧ n.Created c from
    ⟨⟨hslots, hseconds, hadmin, hengine, horacle, hepochs, hlane, hcommittee, hstart.1⟩, hstart.2⟩
  cases hepoch : c.initialEpoch with
  | none =>
    rw [hepoch] at h
    obtain ⟨_, ⟨⟩, ⟨⟩⟩ := bind_eq_ok.mp h
    refine ⟨?_, hseated.created_of_none hepoch⟩
    rintro _ ⟨⟩
  | some epoch =>
    rw [hepoch] at h
    obtain ⟨_, hstart, ⟨⟩⟩ := bind_eq_ok.mp h
    obtain ⟨hmay, rfl⟩ := hseated.updateInitialEpoch_eq_ok.mp hstart
    refine ⟨?_, hseated.created_of_some hepoch⟩
    rintro _ ⟨⟩
    exact hmay

/-- A node can be made of a configuration, whose members a word can count, exactly if no length of
its grid and its frames is zero, the fast lane fits a frame, the administrator, the engine and the
oracle have names, the committee can be seated, and an initial epoch, if there is one, is not epoch
zero and the clock is not in the last epoch of all. The new node has the members of the
configuration in their order, the quorum if there are members, and the initial epoch or else the
last one; nobody has voted, and neither the engine nor the oracle holds a report. -/
theorem create_iff_sound (c : Config) (now : Word) (hsize : c.members.length < UInt64.size) :
    ((∃ n, create c now = .ok n) ↔ c.Sound now) ∧ ∀ n, create c now = .ok n → n.Created c := by
  refine ⟨⟨?_, fun h => exists_create h hsize⟩, fun n h => (sound_and_created h hsize).2⟩
  rintro ⟨n, h⟩
  exact (sound_and_created h hsize).1

/-- Three members are seated under the quorum of two, with a fast lane that fills the frame. Under
the quorum of one they are not. -/
theorem seated_under_least_quorum :
    let c : Config :=
      { Config.sample (fun i => .ofLowByte (.ofNat (i + 1))) 3 with fastLaneSlots := 7200 }
    let low : Config := { c with quorum := 1 }
    c.members.length < UInt64.size ∧ low.members.length < UInt64.size ∧
      (∃ n, create c c.startTime = .ok n ∧ n.engine.roster.members = c.members ∧
        n.engine.quorum = 2 ∧ n.engine.schedule.layout = ⟨1, 225, 7200⟩ ∧
        n.engine.tally = {} ∧ n.oracle.report.report = Octets.zero) ∧
      ¬ ∃ n, create low c.startTime = .ok n := by
  intro c low
  have hsize : c.members.length < UInt64.size := by decide
  have hsound : c.Sound c.startTime ∧ ¬ low.Sound c.startTime := by decide +kernel
  obtain ⟨hiff, hcreated⟩ := create_iff_sound c c.startTime hsize
  obtain ⟨n, hn⟩ := hiff.mpr hsound.1
  have hnew := hcreated n hn
  refine ⟨hsize, hsize, ⟨n, hn, ?_, hnew.quorum, ?_, hnew.tally, hnew.report⟩, fun hlow => ?_⟩
  · simp [Roster.members, hnew.seats, Function.comp_def]
  · rw [hnew.schedule]
    rfl
  · exact hsound.2 ((create_iff_sound low c.startTime hsize).1.mp hlow)

end Node

end ReportQuorum
