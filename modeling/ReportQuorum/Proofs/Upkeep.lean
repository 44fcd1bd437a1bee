import ReportQuorum.Proofs.Exactness
import ReportQuorum.Proofs.FrameSpan
import ReportQuorum.Proofs.Mirror
import ReportQuorum.Proofs.Reopening

/-!
# What was handed over is kept up to date

An engine tells its oracle only of changes: it counts the votes when somebody votes or the committee
changes, and compares the outcome with what it noted last. Between two such calls time passes and
the layout of frames may change. On a clock that does not go back none of that makes the note
outdated: a frame that votes were cast for was current already when they were counted, and a frame
that nobody has voted for has no outcome.

## Main definitions

* `Engine.Level`: what is noted is what the votes say, as long as they matter
* `Engine.Tallied`: the invariant that keeps it so
* `Engine.UpToDate`: the oracle holds what is noted, too

## Main results

* `Engine.Listed.current_before`: frames that are voted about were current when they were
* `Engine.Settled.level`: settling the votes brings the note up to date
* `Engine.Tallied.perform`, `Engine.Tallied.mono`: every call that does not replace the oracle keeps
  the note up to date, and so does time
-/

namespace ReportQuorum.Engine

section Generic

variable {π ε : Type} [ReportProcessor π ε] {e e₁ : Engine π} {now now' : Word} {f : Frame}
  {c : Command π}

/-! ### Slots that have been voted about -/

/-- The slot noted as agreed is not after the slot of the list. -/
def Noted (e : Engine π) : Prop := ∀ v, e.tally.agreed = some v → v.refSlot ≤ e.tally.refSlot

/-- A later frame that has been voted about is current already, though the layout may be another. -/
theorem Listed.current_before (h : e.Listed now) (hpast : ∀ r, e.Past now r → e₁.Past now' r)
    (hf : e₁.schedule.frameAt now' = .ok f) (hpos : 0 < f.refSlot)
    (hvoted : f.refSlot ≤ e.tally.refSlot) :
    ∃ f₀, e.schedule.frameAt now = .ok f₀ ∧ f₀.refSlot = f.refSlot := by
  rw [UInt64.lt_iff_toNat_lt, UInt64.toNat_zero] at hpos
  have hpred : (f.refSlot - 1).toNat = f.refSlot.toNat - 1 :=
    UInt64.toNat_sub_of_le _ _ (UInt64.le_iff_toNat_le.mpr hpos)
  have hbefore : f.refSlot - 1 < e.tally.refSlot := by
    rw [UInt64.le_iff_toNat_le] at hvoted
    rw [UInt64.lt_iff_toNat_lt, hpred]
    omega
  obtain ⟨f₀, hf₀, hlt⟩ := h.reached _ hbefore
  refine ⟨f₀, hf₀, UInt64.le_antisymm (UInt64.not_lt.mp fun hafter => ?_) ?_⟩
  · -- Otherwise the later frame would come after its own reference slot.
    obtain ⟨f', hf', hself⟩ := hpast f.refSlot ⟨f₀, hf₀, hafter⟩
    rw [Except.ok.inj (hf.symm.trans hf')] at hself
    exact UInt64.lt_irrefl _ hself
  · rw [UInt64.lt_iff_toNat_lt, hpred] at hlt
    rw [UInt64.le_iff_toNat_le]
    omega

omit [ReportProcessor π ε] in
/-- A report that wins has been voted for in the slot of the list. -/
theorem refSlot_of_winner {refSlot : Word} {v : Variant} (h : e.winnerFor refSlot = some v) :
    e.tally.refSlot = refSlot :=
  (Tally.mem_variants.mp (List.mem_of_find?_eq_some h)).1

omit [ReportProcessor π ε] in
/-- Nothing wins for a slot that has not been voted about, and nothing is noted for it. -/
theorem Noted.nothing_after (h : e.Noted) {refSlot : Word} (hslot : e.tally.refSlot < refSlot) :
    e.winnerFor refSlot = none ∧ e.tally.agreedFor refSlot = none := by
  constructor
  · refine Option.eq_none_iff_forall_ne_some.mpr fun v hv => ?_
    exact UInt64.lt_irrefl _ (refSlot_of_winner hv ▸ hslot)
  · refine Option.eq_none_iff_forall_ne_some.mpr fun d hd => ?_
    have hle := h _ (Tally.agreedFor_eq_some_iff.mp hd)
    exact UInt64.lt_irrefl _ (UInt64.lt_of_lt_of_le hslot hle)

/-! ### Settling the votes -/

/-- What is noted as handed over is what the votes say, as long as they matter. -/
def Level (e : Engine π) (now : Word) : Prop :=
  ∀ f, e.Open now f → (e.winnerFor f.refSlot).map (·.report) = e.tally.agreedFor f.refSlot

/-- Before anything is voted for, nobody wins and nothing is noted. -/
theorem level_of_unvoted (h : e.tally = {}) (now : Word) : e.Level now := by
  intro f _
  have hwinner : e.winnerFor f.refSlot = none := by
    refine Option.eq_none_iff_forall_ne_some.mpr fun v hv => ?_
    have hlisted := (Tally.exists_of_winner hv).1
    rw [h] at hlisted
    cases hlisted
  rw [hwinner, h]
  rfl

/-- A settlement that succeeds brings the note up to date. -/
theorem Settled.level {e₂ : Engine π} (h : e.Settled now ⟨.ok (), e₂⟩) : e₂.Level now := by
  have hvotes := h.sameVotes
  intro f hopen
  have hf : e.schedule.frameAt now = .ok f := by
    rw [← hvotes.schedule]
    exact hopen.current
  have hwinner : e₂.winnerFor f.refSlot = e.winnerFor f.refSlot :=
    winnerFor_congr hvotes.refSlot hvotes.reports hvotes.roster hvotes.quorum _
  rw [hwinner]
  cases h with
  | closed hf' hclosed =>
    obtain rfl := Except.ok.inj (hf.symm.trans hf')
    exact absurd hopen hclosed
  | unchanged h same =>
    obtain rfl := Except.ok.inj (hf.symm.trans h.current)
    exact same
  | lost h noWinner _ _ =>
    obtain rfl := Except.ok.inj (hf.symm.trans h.current)
    rw [noWinner]
    rfl
  | reached h winner _ _ _ =>
    obtain rfl := Except.ok.inj (hf.symm.trans h.current)
    rw [winner]
    exact (Tally.agreedFor_eq_some_iff.mpr rfl).symm

theorem Settled.noted {r : Reply (Error ε) (Engine π) Unit} (hs : e.Settled now r) (h : e.Noted) :
    r.state.Noted := by
  cases hs with
  | lost _ _ _ _ => exact nofun
  | reached _ winner _ _ _ =>
    intro v hv
    obtain rfl := Option.some.inj hv
    exact UInt64.le_of_eq (refSlot_of_winner winner).symm
  | _ => exact h

/-! ### Calls -/

theorem Amends.valid {settles : Bool} (h : e.Amends now c e₁ settles) (he : e.schedule.Valid) :
    e₁.schedule.Valid := by
  cases h with
  | updateInitialEpoch _ hs _ => simpa using he.setInitialEpoch hs
  | setFrameConfig _ hs => simpa using he.reconfigure hs
  | setFastLane _ hs => simpa using he.setFastLane hs
  | submitReport _ => exact he
  | _ => simpa [emit] using he

theorem Performed.valid {r : Reply (Error ε) (Engine π) (Option π)} (h : e.Performed now c r)
    (he : e.schedule.Valid) : r.state.schedule.Valid := by
  cases h with
  | amended hamends => exact hamends.valid he
  | settled hamends hs => exact hs.sameVotes.schedule ▸ hamends.valid he
  | _ => exact he

/-- The slot of the list stays or moves on. -/
theorem Amends.refSlot_le {settles : Bool} (h : e.Amends now c e₁ settles)
    (hlisted : e.Listed now) : e.tally.refSlot ≤ e₁.tally.refSlot := by
  cases h with
  | submitReport hjudge =>
    obtain ⟨f, hvote, -⟩ := admissible_of_judge hjudge
    have hcurrent : e.tally.refSlot ≤ f.refSlot := hlisted.le_current hvote.current
    rw [← hvote.slot] at hcurrent
    exact hcurrent
  | _ => simp [emit]

theorem Amends.noted {settles : Bool} (hc : e.Amends now c e₁ settles) (hlisted : e.Listed now)
    (h : e.Noted) : e₁.Noted := by
  intro v hv
  rw [hc.keeps.agreed] at hv
  exact UInt64.le_trans (h v hv) (hc.refSlot_le hlisted)

theorem Performed.noted {r : Reply (Error ε) (Engine π) (Option π)} (hr : e.Performed now c r)
    (hlisted : e.Listed now) (h : e.Noted) : r.state.Noted := by
  cases hr with
  | amended hamends => exact hamends.noted hlisted h
  | settled hamends hs => exact hs.noted (hamends.noted hlisted h)
  | _ => exact h

/-- What the outcome of the votes depends on is the same, and so is what is noted. -/
structure SameCount (e e' : Engine π) : Prop where
  tally : e'.tally = e.tally
  roster : e'.roster = e.roster
  quorum : e'.quorum = e.quorum

/-- A change after which the votes are not settled does not touch them, or no frame is open. -/
theorem Amends.sameCount (h : e.Amends now c e₁ false) :
    e.SameCount e₁ ∨ ∀ f, ¬ e₁.Open now f := by
  generalize hsettles : false = settles at h
  cases h with
  | grantRole _ => exact .inl ⟨by simp, by simp, by simp⟩
  | revokeRole _ => exact .inl ⟨by simp, by simp, by simp⟩
  | updateInitialEpoch _ _ _ => exact .inl ⟨by simp, by simp, by simp⟩
  | setFrameConfig _ _ => exact .inl ⟨by simp, by simp, by simp⟩
  | setFastLane _ _ => exact .inl ⟨by simp, by simp, by simp⟩
  | submitReport hjudge =>
    -- A vote that is not settled comes after the start of processing.
    obtain ⟨f, hvote, hlate⟩ := admissible_of_judge hjudge
    refine .inr fun f' hopen => ?_
    have hlocked : ReportProcessor.isProcessing e.processor f.refSlot = true := by
      refine hlate.mp ?_
      cases ‹Admission› with
      | late => rfl
      | counted => simp at hsettles
    have hf : e.schedule.frameAt now = .ok f' := hopen.current
    obtain rfl := Except.ok.inj (hvote.current.symm.trans hf)
    have hfree : ReportProcessor.isProcessing e.processor f.refSlot = false := hopen.unlocked
    rw [hfree] at hlocked
    cases hlocked
  | _ =>
    refine .inr fun f hopen => ?_
    have hactive := (Schedule.frameAt_eq_ok.mp hopen.current).1
    simp [emit, ← hsettles] at hactive

end Generic

/-! ### The oracle's side -/

variable {η φ : Type} [ReportHandler η φ] {e e₁ : Engine (Oracle η)} {now now' : Word}
  {c : Command (Oracle η)}

/-- An open frame that has been voted about was open before. -/
theorem Open.before {f : Frame} (h : e₁.Open now' f) (hlisted : e.Listed now)
    (hvalid : e.schedule.Valid) (hvalid₁ : e₁.schedule.Valid)
    (hgrid : e₁.schedule.grid = e.schedule.grid) (hnow : now ≤ now')
    (hpast : ∀ r, e.Past now r → e₁.Past now' r)
    (hmark : e.processor.processingSlot < f.refSlot) (hvoted : f.refSlot ≤ e.tally.refSlot) :
    ∃ f₀, e.Open now f₀ ∧ f₀.refSlot = f.refSlot := by
  have hpos : 0 < f.refSlot := UInt64.lt_of_le_of_lt (UInt64.zero_le ..) hmark
  obtain ⟨f₀, hf₀, hslot⟩ := hlisted.current_before hpast h.current hpos hvoted
  refine ⟨f₀, ⟨hf₀, ?_, ?_⟩, hslot⟩
  · -- The deadline of the current frame passes only when slots run out.
    have htimely := (Schedule.slotAt_le_deadlineSlot_iff hvalid₁ h.current).mp h.timely
    rw [hgrid] at htimely
    exact (Schedule.slotAt_le_deadlineSlot_iff hvalid hf₀).mpr
      (UInt64.lt_of_le_of_lt (TimeGrid.slotAt_mono hnow) htimely)
  · rw [← hslot] at hmark
    exact decide_eq_false (UInt64.not_le.mpr hmark)

/-- The note stays up to date as long as the votes are the same. -/
theorem Level.carry (h : e.Level now) (hlisted : e.Listed now) (hnoted : e.Noted)
    (hvalid : e.schedule.Valid) (hvalid₁ : e₁.schedule.Valid)
    (hgrid : e₁.schedule.grid = e.schedule.grid) (hnow : now ≤ now')
    (hpast : ∀ r, e.Past now r → e₁.Past now' r) (hsame : e.SameCount e₁)
    (hmark : ∀ slot, e₁.processor.processingSlot < slot → e.processor.processingSlot < slot) :
    e₁.Level now' := by
  intro f hopen
  have hwinner : e₁.winnerFor f.refSlot = e.winnerFor f.refSlot :=
    winnerFor_congr (congrArg _ hsame.tally) (congrArg _ hsame.tally) hsame.roster hsame.quorum _
  rw [hwinner, hsame.tally]
  by_cases hvoted : f.refSlot ≤ e.tally.refSlot
  · -- The frame was open when its votes were last counted.
    have hunlocked : ¬ f.refSlot ≤ e₁.processor.processingSlot := of_decide_eq_false hopen.unlocked
    obtain ⟨f₀, hopen₀, hslot⟩ := hopen.before hlisted hvalid hvalid₁ hgrid hnow hpast
      (hmark _ (UInt64.not_le.mp hunlocked)) hvoted
    rw [← hslot]
    exact h f₀ hopen₀
  · -- Nobody has voted for the frame yet.
    obtain ⟨hnone, hnothing⟩ := hnoted.nothing_after (UInt64.not_le.mp hvoted)
    rw [hnone, hnothing]
    rfl

/-- What is noted is what the votes say, and an engine works with its oracle in the way that keeps
it so. What the oracle holds is another matter. -/
structure Tallied (e : Engine (Oracle η)) (now : Word) : Prop where
  bound : e.Bound e.processor
  listed : e.Listed now
  valid : e.schedule.Valid
  noted : e.Noted
  level : e.Level now

/-- Nothing has been voted for in a new engine, and nothing has been handed over. -/
theorem Created.tallied {setup : Setup} {o : Oracle η} (h : e.Created setup o)
    (hbound : e.Bound e.processor) (now : Word) : e.Tallied now where
  bound := hbound
  listed := h.listed now
  valid := Schedule.valid_of_dormant h.schedule
  noted := by
    rw [Noted, h.tally]
    exact nofun
  level := level_of_unvoted h.tally now

namespace Tallied

/-- The votes stay as they are, and if the oracle's mark moves, it does not move back. -/
theorem level_of_sameCount (h : e.Tallied now) (hschedule : e₁.schedule = e.schedule)
    (hsame : e.SameCount e₁) (hnow : now ≤ now')
    (hmark : e.processor.processingSlot ≤ e₁.processor.processingSlot) : e₁.Level now' :=
  h.level.carry h.listed h.noted h.valid (hschedule ▸ h.valid) (by rw [hschedule]) hnow
    (fun _ hr => (hr.mono hnow).congr hschedule) hsame
    fun _ hslot => UInt64.lt_of_le_of_lt hmark hslot

theorem mono (h : e.Tallied now) (hnow : now ≤ now') : e.Tallied now' :=
  { h with
    listed := h.listed.mono hnow
    level := h.level_of_sameCount rfl ⟨rfl, rfl, rfl⟩ hnow (UInt64.le_refl _) }

/-- What the oracle does on its own keeps the note up to date. -/
theorem of_marks (h : e.Tallied now) {o : Oracle η} (hmarks : e.processor.Marks o) :
    { e with processor := o }.Tallied now where
  bound := (h.bound.of_marks hmarks).congr rfl rfl
  listed := h.listed.congr rfl rfl rfl fun _ hr => hr
  valid := h.valid
  noted := h.noted
  level := by
    refine h.level_of_sameCount rfl ⟨rfl, rfl, rfl⟩ (UInt64.le_refl _) ?_
    -- The mark moves forward to the slot held, if it moves.
    change e.processor.processingSlot ≤ o.processingSlot
    obtain hsame | hmoved := hmarks.processingSlot
    · rw [hsame]
      exact UInt64.le_refl _
    · rw [hmoved]
      exact h.bound.processingSlot_le

theorem drained (h : e.Tallied now) : e.drained.Tallied now :=
  ⟨h.bound.congr rfl rfl, h.listed.congr rfl rfl rfl fun _ hr => hr, h.valid, h.noted,
    h.level_of_sameCount rfl ⟨rfl, rfl, rfl⟩ (UInt64.le_refl _) (UInt64.le_refl _)⟩

/-- A call brings the note up to date or leaves it so. -/
theorem level_performed (h : e.Tallied now)
    {r : Reply (Error (Oracle.Error φ)) (Engine (Oracle η)) (Option (Oracle η))}
    (hr : e.Performed now c r) (hc : c.replaces = false) : r.state.Level now := by
  have hserved := hr.served
  rw [Command.successor_eq hc, ite_self] at hserved
  have hmark : e.processor.processingSlot ≤ r.state.processor.processingSlot := by
    rw [hserved.processingSlot]
    exact UInt64.le_refl _
  cases hr with
  | refused _ => exact h.level
  | amended hamends =>
    obtain hsame | hclosed := hamends.sameCount
    · exact h.level.carry h.listed h.noted h.valid (hamends.valid h.valid) hamends.keeps.grid
        (UInt64.le_refl _) (fun _ hr => hr.amends hamends) hsame
        fun _ hslot => UInt64.lt_of_le_of_lt hmark hslot
    · exact fun f hopen => absurd hopen (hclosed f)
  | settled _ hs => exact hs.level
  | undone _ _ => exact h.level_of_sameCount rfl ⟨rfl, rfl, rfl⟩ (UInt64.le_refl _) hmark
  | replaced _ _ _ _ => cases hc

/-- A call that does not replace the oracle keeps the note up to date. -/
theorem perform (h : e.Tallied now) (hc : c.replaces = false) :
    (e.perform now c).state.Tallied now := by
  have hperformed := e.performed now c
  have hserved := e.served_perform now c
  rw [incumbent_eq hc] at hserved
  exact
    { bound := h.bound.of_served hserved hperformed.address hperformed.grid
      listed := h.listed.performed hperformed
      valid := hperformed.valid h.valid
      noted := hperformed.noted h.listed h.noted
      level := h.level_performed hperformed hc }

end Tallied

/-- What an oracle holds is what its engine has noted, and what is noted is what the votes say. -/
structure UpToDate (e : Engine (Oracle η)) (now : Word) : Prop where
  mirrored : e.Mirrored
  bound : e.Bound e.processor
  listed : e.Listed now
  valid : e.schedule.Valid
  noted : e.Noted
  level : e.Level now

theorem Tallied.upToDate (h : e.Tallied now) (hmirrored : e.Mirrored) : e.UpToDate now :=
  ⟨hmirrored, h.bound, h.listed, h.valid, h.noted, h.level⟩

namespace UpToDate

theorem tallied (h : e.UpToDate now) : e.Tallied now :=
  ⟨h.bound, h.listed, h.valid, h.noted, h.level⟩

theorem mono (h : e.UpToDate now) (hnow : now ≤ now') : e.UpToDate now' :=
  (h.tallied.mono hnow).upToDate h.mirrored

/-- What the oracle does on its own keeps it up to date. -/
theorem of_marks (h : e.UpToDate now) {o : Oracle η} (hmarks : e.processor.Marks o) :
    { e with processor := o }.UpToDate now :=
  (h.tallied.of_marks hmarks).upToDate
    (h.mirrored.with_processor hmarks.engine hmarks.grid (Oracle.held_congr hmarks.report))

theorem drained (h : e.UpToDate now) : e.drained.UpToDate now :=
  h.tallied.drained.upToDate
    ⟨h.mirrored.bound, h.mirrored.grid, h.mirrored.named, h.mirrored.agreed⟩

/-- A call that does not replace the oracle keeps it up to date. -/
theorem perform (h : e.UpToDate now) (hc : c.replaces = false) :
    (e.perform now c).state.UpToDate now :=
  (h.tallied.perform hc).upToDate (h.mirrored.perform hc)

/-- In an open frame the oracle holds a report exactly if the report wins. -/
theorem held_iff_winner (h : e.UpToDate now) {f : Frame} (hopen : e.Open now f) {d : Digest} :
    e.processor.held = some ⟨f.refSlot, d⟩ ↔
      (e.winnerFor f.refSlot).map (·.report) = some d := by
  rw [← h.mirrored.agreed, h.level f hopen]
  exact Tally.agreedFor_eq_some_iff.symm

end UpToDate

end ReportQuorum.Engine
