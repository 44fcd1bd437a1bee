import ReportQuorum.Proofs.DormantEngines

/-!
# Where a play begins if nothing else is said

A scenario without a moment of its own begins at the first moment of the initial epoch. That moment
is found by two products and a sum, each of which is cut off at the last word. Nobody ever sees it
cut off: then it is the last moment of all, which is in the last epoch, and there the initial epoch
is refused, so that no node is made.

## Main definitions

* `TimeGrid.firstSecond`: the first second of an epoch, which need not fit a word
* `Schedule.BeginsAt`: frames begin at a moment

## Main results

* `TimeGrid.toNat_timeOfEpoch`: the first moment of an epoch is its first second or the last word
* `Schedule.beginsAt_timeOfEpoch`: frames begin at the first moment of the initial epoch
* `Node.started_of_create`: what holds if a node is made that has an initial epoch
* `Simulation.run_from_first_moment`: where a play begins if nothing else is said
-/

namespace ReportQuorum

/-! ### The first moment of an epoch -/

namespace TimeGrid

variable {g : TimeGrid} {epoch t : Word}

/-- The first second of an epoch. It may lie behind the last word. -/
def firstSecond (g : TimeGrid) (epoch : Word) : Nat :=
  g.genesisTime.toNat + epoch.toNat * g.slotsPerEpoch.toNat * g.secondsPerSlot.toNat

/-- If the slot is cut off on the way, the moment is cut off too. -/
theorem toNat_timeOfEpoch (hseconds : 0 < g.secondsPerSlot.toNat) (epoch : Word) :
    (g.timeOfEpoch epoch).toNat = min (g.firstSecond epoch) (UInt64.size - 1) := by
  rw [timeOfEpoch, toNat_timeOfSlot, firstSlot, Word.toNat_mulSat, firstSecond]
  by_cases hfits : epoch.toNat * g.slotsPerEpoch.toNat ≤ UInt64.size - 1
  · rw [Nat.min_eq_left hfits]
  · have hcut := Nat.le_mul_of_pos_right (UInt64.size - 1) hseconds
    have hslots : UInt64.size - 1 ≤ epoch.toNat * g.slotsPerEpoch.toNat := Nat.le_of_not_le hfits
    have hexact := Nat.mul_le_mul_right g.secondsPerSlot.toNat hslots
    rw [Nat.min_eq_right hslots]
    omega

/-- A moment that is not in the last epoch is not the last one, so nothing has been cut off. -/
theorem toNat_timeOfEpoch_of_lt (hseconds : 0 < g.secondsPerSlot.toNat)
    (h : g.epochAt (g.timeOfEpoch epoch) < g.farFutureEpoch) :
    (g.timeOfEpoch epoch).toNat = g.firstSecond epoch := by
  have hne : g.timeOfEpoch epoch ≠ Word.last := by
    intro hlast
    rw [hlast, farFutureEpoch] at h
    exact UInt64.lt_irrefl _ h
  rw [Ne, ← UInt64.toNat_inj, Word.toNat_last, toNat_timeOfEpoch hseconds] at hne
  rw [toNat_timeOfEpoch hseconds]
  omega

/-- The first second of an epoch is in its first slot. -/
theorem toNat_slotAt_of_firstSecond (hseconds : 0 < g.secondsPerSlot.toNat)
    (ht : t.toNat = g.firstSecond epoch) :
    (g.slotAt t).toNat = epoch.toNat * g.slotsPerEpoch.toNat := by
  rw [toNat_slotAt, ht, firstSecond, Nat.add_sub_cancel_left, Nat.mul_div_cancel _ hseconds]

theorem epochAt_of_firstSecond (hslots : 0 < g.slotsPerEpoch.toNat)
    (hseconds : 0 < g.secondsPerSlot.toNat) (ht : t.toNat = g.firstSecond epoch) :
    g.epochAt t = epoch := by
  rw [← UInt64.toNat_inj, toNat_epochAt, toNat_slotAt_of_firstSecond hseconds ht,
    Nat.mul_div_cancel _ hslots]

/-- Before the first second of an epoch other than zero an earlier one lasts. -/
theorem epochAt_lt_of_lt_firstSecond (hslots : 0 < g.slotsPerEpoch.toNat)
    (hseconds : 0 < g.secondsPerSlot.toNat) (hepoch : 0 < epoch.toNat)
    (ht : t.toNat < g.firstSecond epoch) : g.epochAt t < epoch := by
  have hlength := Nat.mul_pos (Nat.mul_pos hepoch hslots) hseconds
  rw [firstSecond] at ht
  rw [UInt64.lt_iff_toNat_lt, toNat_epochAt, toNat_slotAt, Nat.div_lt_iff_lt_mul hslots,
    Nat.div_lt_iff_lt_mul hseconds]
  omega

end TimeGrid

namespace Schedule

variable {s : Schedule} {t : Word}

/-- Frames begin at a moment: it is the first second of the initial epoch, and the first frame is the
current one. Its reference slot is the last before the slot of the moment. Before there is no frame,
and there is a moment before. -/
structure BeginsAt (s : Schedule) (t : Word) : Prop where
  time : t.toNat = s.grid.firstSecond s.layout.initialEpoch
  active : s.isActive t = true
  frame : ∃ f, s.frameAt t = .ok f ∧ f.index = 0 ∧ f.refSlot.toNat + 1 = (s.grid.slotAt t).toNat
  slot : (s.grid.slotAt t).toNat =
    s.layout.initialEpoch.toNat * s.grid.slotsPerEpoch.toNat
  notFirst : 0 < t
  inactive : ∀ t' < t, s.isActive t' = false

/-- Frames begin at the first moment of the initial epoch, unless that is in the last epoch. -/
theorem beginsAt_timeOfEpoch (hslots : 0 < s.grid.slotsPerEpoch.toNat)
    (hseconds : 0 < s.grid.secondsPerSlot.toNat) (hepoch : 0 < s.layout.initialEpoch.toNat)
    (hlast : s.grid.epochAt (s.grid.timeOfEpoch s.layout.initialEpoch) < s.grid.farFutureEpoch) :
    s.BeginsAt (s.grid.timeOfEpoch s.layout.initialEpoch) := by
  have htime := TimeGrid.toNat_timeOfEpoch_of_lt hseconds hlast
  generalize s.grid.timeOfEpoch s.layout.initialEpoch = t at htime
  have hslot := TimeGrid.toNat_slotAt_of_firstSecond hseconds htime
  have hnow := TimeGrid.epochAt_of_firstSecond hslots hseconds htime
  have hf := frameAt_of_epochAt_eq hnow
  have hactive := (frameAt_eq_ok.mp hf).1
  have hpassed : 0 < s.layout.initialEpoch.toNat * s.grid.slotsPerEpoch.toNat :=
    Nat.mul_pos hepoch hslots
  have hstart : s.startAt t = s.layout.initialEpoch.toNat := by
    rw [startAt, hnow, Nat.sub_self, Nat.zero_div, Nat.zero_mul, Nat.add_zero]
  refine ⟨htime, hactive, ⟨s.initialFrame, hf, rfl, ?_⟩, hslot, ?_, fun t' ht => ?_⟩
  · rw [toNat_refSlot hf, hstart, hslot]
    omega
  · have hlength := Nat.mul_pos hpassed hseconds
    rw [UInt64.lt_iff_toNat_lt, htime, TimeGrid.firstSecond, UInt64.toNat_zero]
    omega
  · rw [UInt64.lt_iff_toNat_lt, htime] at ht
    exact isActive_eq_false_iff.mpr
      (TimeGrid.epochAt_lt_of_lt_firstSecond hslots hseconds hepoch ht)

end Schedule

/-! ### Nodes with an initial epoch -/

namespace Node

variable {c : Config} {now epoch : Word} {n : Node}

/-- If a node is made that has an initial epoch, the grid can be used, the epoch is not zero, and the
clock is not in the last epoch. This does not depend on how many members there are. -/
theorem started_of_create (hepoch : c.initialEpoch = some epoch) (h : create c now = .ok n) :
    0 < c.grid.slotsPerEpoch.toNat ∧ 0 < c.grid.secondsPerSlot.toNat ∧ 0 < epoch.toNat ∧
      c.grid.epochAt now < c.grid.farFutureEpoch ∧ n.engine.schedule.grid = c.grid ∧
      n.engine.schedule.layout.initialEpoch = epoch := by
  -- Until the initial epoch is set it is the last one, whatever roles and seats are given.
  have hstep : ∀ (e e' : Engine (Oracle ReportLog)) (call : Engine.Command (Oracle ReportLog)) r,
      call.setsInitialEpoch = false → (e.perform now call).state = r.state →
      engineStep r = .ok e' → e.StartsLast c.grid → e'.StartsLast c.grid := by
    intro e e' call r hcall hr hok he
    have hkept := he.performed (e.performed now call) fun _ => hcall
    rw [hr, engineStep_eq_ok.mp hok] at hkept
    exact hkept
  simp only [create, hepoch, bind_eq_ok, mapError_eq_ok] at h
  obtain ⟨_, hgrid, o, -, e₀, he₀, e₁, he₁, e₂, he₂, e₃, he₃, e₄, he₄, hn⟩ := h
  obtain rfl := pure_eq_ok.mp hn
  obtain ⟨hslots, hseconds⟩ := TimeGrid.validate_eq_ok.mp hgrid
  have h₀ : e₀.StartsLast c.grid := Engine.startsLast_of_create he₀
  have h₁ : e₁.StartsLast c.grid := by
    refine invariant_of_foldlM_eq_ok (P := (·.StartsLast c.grid)) ?_ h₀ he₁
    intro e role e' he hok
    exact hstep e e' (.grantRole c.admin role c.admin) _ rfl rfl hok he
  have h₂ : e₂.StartsLast c.grid := by
    refine invariant_of_foldlM_eq_ok (P := (·.StartsLast c.grid)) ?_ h₁ he₂
    intro e role e' he hok
    obtain ⟨o, -, -, -, rfl⟩ := eq_of_grantInOracle hok
    exact ⟨he.grid, he.initialEpoch⟩
  have h₃ : e₃.StartsLast c.grid := by
    refine invariant_of_foldlM_eq_ok (P := (·.StartsLast c.grid)) ?_ h₂ he₃
    intro e m e' he hok
    exact hstep e e' (.addMember c.admin m c.quorum) _ rfl rfl hok he
  obtain ⟨-, hzero, hinactive, -, rfl⟩ :=
    Engine.updateInitialEpoch_eq_ok.mp (engineStep_eq_ok.mp he₄)
  rw [Engine.startingAt_schedule]
  exact ⟨UInt64.lt_iff_toNat_lt.mp hslots, UInt64.lt_iff_toNat_lt.mp hseconds,
    UInt64.lt_iff_toNat_lt.mp (UInt64.pos_iff_ne_zero.mpr hzero),
    h₃.isActive_eq_false_iff.mp hinactive, h₃.grid, rfl⟩

end Node

/-! ### Plays -/

namespace Simulation

open Scenario (Step)

/-- For every configuration with an initial epoch and every script without a moment of its own: if a
node is made, the play begins at the moment at which frames begin. If the first second of the initial
epoch does not fit a word, no node is made and there is no play. -/
theorem run_from_first_moment {c : Node.Config} {epoch : Word}
    (hepoch : c.initialEpoch = some epoch) (steps : List Step) :
    (∀ n, Node.create c c.startTime = .ok n →
      let p := Progress.start c.startTime n
      let s := p.state.node.engine.schedule
      run c ⟨none, steps⟩ = .ok (p.play 0 steps).report ∧
        s.grid = c.grid ∧ s.layout.initialEpoch = epoch ∧ s.BeginsAt p.state.now) ∧
    (UInt64.size ≤ c.grid.firstSecond epoch →
      ∃ err, Node.create c c.startTime = .error err ∧ run c ⟨none, steps⟩ = .error err) := by
  have hstart : c.startTime = c.grid.timeOfEpoch epoch := by rw [Node.Config.startTime, hepoch]; rfl
  refine ⟨fun n hn => ?_, fun hsize => ?_⟩
  · obtain ⟨hslots, hseconds, hpos, hlast, hgrid, hinitial⟩ := Node.started_of_create hepoch hn
    have hplayed : run c ⟨none, steps⟩ =
        .ok ((Progress.start c.startTime n).play 0 steps).report := by
      rw [run, Option.getD_none, hn]
      rfl
    refine ⟨hplayed, hgrid, hinitial, ?_⟩
    change n.engine.schedule.BeginsAt c.startTime
    rw [hstart] at hlast ⊢
    rw [← hgrid] at hslots hseconds hlast ⊢
    rw [← hinitial] at hpos hlast ⊢
    exact Schedule.beginsAt_timeOfEpoch hslots hseconds hpos hlast
  · cases hn : Node.create c c.startTime with
    | error err =>
      refine ⟨err, rfl, ?_⟩
      rw [run, Option.getD_none, hn]
      rfl
    | ok n =>
      obtain ⟨-, hseconds, -, hlast, -⟩ := Node.started_of_create hepoch hn
      rw [hstart] at hlast
      have hfits := TimeGrid.toNat_timeOfEpoch_of_lt hseconds hlast
      have := (c.grid.timeOfEpoch epoch).toNat_lt_size
      omega

/-- Frames begin with the second epoch, and so does the play. If they are to begin with an epoch
whose first slot does not fit a word, there is no play. -/
theorem run_from_second_epoch :
    let c := Node.Config.sample (fun i => .ofLowByte (.ofNat (i + 1))) 3
    let late : Node.Config := { c with initialEpoch := some 0x1000000000000000 }
    let steps := [Step.advanceSlots 1]
    (∃ n, Node.create c c.startTime = .ok n ∧
      let p := Progress.start c.startTime n
      run c ⟨none, steps⟩ = .ok (p.play 0 steps).report ∧ p.state.now = 1606824407 ∧
        p.state.node.engine.currentFrame p.state.now = .ok ⟨0, 31, 7231⟩ ∧
        p.state.node.engine.schedule.BeginsAt p.state.now) ∧
    ∃ err, run late ⟨none, steps⟩ = .error err := by
  intro c late steps
  have hmade : (Node.create c c.startTime).toOption.any (fun n => decide (
      (n.engine.currentFrame c.startTime).toOption = some ⟨0, 31, 7231⟩)) = true := by
    decide +kernel
  have hnow : c.startTime = 1606824407 := by decide +kernel
  obtain ⟨n, hn, hf⟩ := exists_of_any hmade
  rw [toOption_eq_some] at hf
  obtain ⟨hplayed, -, -, hbegins⟩ := (run_from_first_moment (c := c) rfl steps).1 n hn
  obtain ⟨err, -, hrefused⟩ :=
    (run_from_first_moment (c := late) rfl steps).2 (by decide +kernel)
  exact ⟨⟨n, hn, hplayed, hnow, hf, hbegins⟩, err, hrefused⟩

end Simulation

end ReportQuorum
