import ReportQuorum.Proofs.FastLanes

/-!
# Positions behind the last seat

Whether a position is in the lane of a frame may be asked of every word, not only of the positions
of seats. A quorum that covers the roster keeps the positions behind the last seat out. A smaller one
does not: the lane goes on behind the last seat as far as the quorum asks for, although it goes on
from the first seat too, and for the last words the position and the number of seats do not even add
up to a word.

## Main definitions

* `Word.add?`: a sum that fits a word
* `Roster.isFastLane?`: `Roster.isFastLane` with sums that fit

## Main results

* `Roster.isFastLane_of_isFastLane?`: sums that fit are not cut off
* `Roster.isFastLane?_of_seat`, `Roster.isFastLane?_of_behind`: a lane smaller than the roster, on its
  seats and behind the last one
* `Roster.lane_told_by_offset_iff`: for which positions the lane is what its offsets say
* `Roster.sixth_of_five_in_lane`: a position behind the last seat that is in the lane
-/

namespace ReportQuorum

namespace Word

variable {a b c : Word}

/-- The sum, if it fits a word. -/
def add? (a b : Word) : Option Word :=
  if a.toNat + b.toNat < UInt64.size then some (a + b) else none

theorem add?_eq_some_iff : a.add? b = some c ↔ c.toNat = a.toNat + b.toNat := by
  rw [add?]
  split
  next hfits =>
    rw [Option.some.injEq, ← UInt64.toNat_inj, UInt64.toNat_add, Nat.mod_eq_of_lt hfits, eq_comm]
  next hfits =>
    have := c.toNat_lt_size
    exact iff_of_false (by simp) (by omega)

theorem add_eq_of_add? (h : a.add? b = some c) : a + b = c := by
  rw [add?] at h
  split at h
  · exact Option.some.inj h
  · cases h

theorem add?_eq_none_iff : a.add? b = none ↔ UInt64.size ≤ a.toNat + b.toNat := by
  rw [add?]
  split
  next hfits => exact iff_of_false (by simp) (Nat.not_le.mpr hfits)
  next hfits => exact iff_of_true rfl (Nat.not_lt.mp hfits)

end Word

namespace Roster

/-- Whether a position is in the fast lane of the frame with an index, if every sum that has to be
taken for the answer fits a word. -/
def isFastLane? (r : Roster) (position frameIndex quorum : Word) : Option Bool :=
  let total := r.count
  if total ≤ quorum then some (position < total)
  else
    let start := frameIndex % total
    (start.add? quorum).bind fun pastEnd =>
      -- The sum with the position is not taken if the first part of the lane decides.
      if start ≤ position ∧ position < pastEnd then some true
      else (position.add? total).map fun around => decide (around < pastEnd)

variable {r : Roster} {position frameIndex quorum : Word} {b : Bool}

/-- Sums that fit are not cut off. -/
theorem isFastLane_of_isFastLane? (h : r.isFastLane? position frameIndex quorum = some b) :
    r.isFastLane position frameIndex quorum = b := by
  rw [isFastLane?] at h
  rw [isFastLane]
  split at h
  next hall => rw [if_pos hall, Option.some.inj h]
  next hall =>
    obtain ⟨pastEnd, hend, h⟩ := Option.bind_eq_some_iff.mp h
    simp only [if_neg hall, Word.add_eq_of_add? hend, ← Bool.decide_and]
    split at h
    next hfirst => rw [decide_eq_true hfirst, Bool.true_or, Option.some.inj h]
    next hfirst =>
      obtain ⟨around, haround, rfl⟩ := Option.map_eq_some_iff.mp h
      rw [decide_eq_false hfirst, Bool.false_or, Word.add_eq_of_add? haround]

/-- A quorum that covers the roster takes in its positions and no other. -/
theorem isFastLane?_of_le (hr : r.size ≤ 2 ^ 63) (hq : r.size ≤ quorum.toNat)
    (position frameIndex : Word) :
    r.isFastLane? position frameIndex quorum = some (decide (position.toNat < r.size)) := by
  rw [← toNat_count hr, ← UInt64.le_iff_toNat_le] at hq
  rw [isFastLane?, if_pos hq]
  simp only [UInt64.lt_iff_toNat_lt, toNat_count hr]

/-- A smaller quorum takes in as many positions behind the first one of the lane, and if others are
asked for, the position and the number of seats have to add up to a word. -/
theorem isFastLane?_of_lt (hr : r.size ≤ 2 ^ 63) (hq : quorum.toNat < r.size)
    (position frameIndex : Word) :
    r.isFastLane? position frameIndex quorum =
      let start := frameIndex.toNat % r.size
      if start ≤ position.toNat ∧ position.toNat < start + quorum.toNat then some true
      else if position.toNat + r.size < UInt64.size then
        some (decide (position.toNat + r.size < start + quorum.toNat))
      else none := by
  have hsmall : ¬ r.count ≤ quorum := by
    rw [UInt64.le_iff_toNat_le, toNat_count hr]
    omega
  have hstart : (frameIndex % r.count).toNat = frameIndex.toNat % r.size := by
    rw [UInt64.toNat_mod, toNat_count hr]
  have hfirst : frameIndex.toNat % r.size < r.size := Nat.mod_lt _ (by omega)
  -- The end of the lane fits a word, whatever the index of the frame.
  obtain ⟨pastEnd, hpast⟩ : ∃ pastEnd, (frameIndex % r.count).add? quorum = some pastEnd := by
    rw [← Option.isSome_iff_exists, Option.isSome_iff_ne_none, Ne, Word.add?_eq_none_iff, hstart,
      UInt64.size]
    omega
  have hend : pastEnd.toNat = frameIndex.toNat % r.size + quorum.toNat := by
    rw [Word.add?_eq_some_iff.mp hpast, hstart]
  rw [isFastLane?, if_neg hsmall]
  simp only [hpast, Option.bind_some, UInt64.le_iff_toNat_le, UInt64.lt_iff_toNat_lt, hstart, hend]
  congr 1
  cases haround : position.add? r.count with
  | none =>
    rw [Word.add?_eq_none_iff, toNat_count hr] at haround
    rw [if_neg (Nat.not_lt.mpr haround)]
    rfl
  | some around =>
    rw [Word.add?_eq_some_iff, toNat_count hr] at haround
    rw [if_pos (haround ▸ around.toNat_lt_size), Option.map_some, haround]

/-- On a seat the two parts of the lane are the offsets below the quorum. -/
theorem isFastLane?_of_seat (hr : r.size ≤ 2 ^ 63) (hq : quorum.toNat < r.size)
    (hi : position.toNat < r.size) (frameIndex : Word) :
    r.isFastLane? position frameIndex quorum =
      some (decide (laneOffset r.size frameIndex.toNat position.toNat < quorum.toNat)) := by
  have hsum : position.toNat + r.size < UInt64.size := by
    rw [UInt64.size]
    omega
  have hlane := laneOffset_lt_iff (f := frameIndex.toNat) hi hq
  rw [isFastLane?_of_lt hr hq]
  simp only [hlane, if_pos hsum]
  split
  next hpart => simp [hpart]
  next hpart => simp [hpart]

/-- Behind the last seat a lane goes on to its end, and then there are positions that are kept out,
as long as they and the number of seats add up to a word. -/
theorem isFastLane?_of_behind (hr : r.size ≤ 2 ^ 63) (hq : quorum.toNat < r.size)
    (hi : r.size ≤ position.toNat) (frameIndex : Word) :
    r.isFastLane? position frameIndex quorum =
      if position.toNat < frameIndex.toNat % r.size + quorum.toNat then some true
      else if position.toNat + r.size < UInt64.size then some false
      else none := by
  have hfirst : frameIndex.toNat % r.size < r.size := Nat.mod_lt _ (by omega)
  have hstart : frameIndex.toNat % r.size ≤ position.toNat := by omega
  have haround : ¬ position.toNat + r.size < frameIndex.toNat % r.size + quorum.toNat := by omega
  rw [isFastLane?_of_lt hr hq]
  simp only [hstart, true_and, decide_eq_false haround]

/-- In every roster that can be held in memory, and for all words: that the lane of a frame takes in
the seats whose offset is below the quorum, and no other position, and is told without a sum that
overflows, is true exactly for the positions of seats, for a quorum that covers the roster, and
else behind the end of the lane, as far as the position and the number of seats add up to a word. Of
the other positions those before the end of the lane are told to be in it, and for the last ones the
sum overflows. -/
theorem lane_told_by_offset_iff (hr : r.size ≤ 2 ^ 63) (position frameIndex quorum : Word) :
    let n := r.size
    let i := position.toNat
    let f := frameIndex.toNat
    let q := quorum.toNat
    (r.isFastLane? position frameIndex quorum =
        some (decide (i < n ∧ (n ≤ q ∨ laneOffset n f i < q))) ↔
      i < n ∨ n ≤ q ∨ f % n + q ≤ i ∧ i + n < UInt64.size) ∧
    (n ≤ i → q < n → i < f % n + q → r.isFastLane? position frameIndex quorum = some true) ∧
    (n ≤ i → q < n → f % n + q ≤ i → UInt64.size ≤ i + n →
      r.isFastLane? position frameIndex quorum = none) ∧
    ∀ b, r.isFastLane? position frameIndex quorum = some b →
      r.isFastLane position frameIndex quorum = b := by
  intro n i f q
  refine ⟨?_, fun hi hq hend => ?_, fun hi hq hend hsum => ?_, fun _ => isFastLane_of_isFastLane?⟩
  · obtain hq | hq := Nat.lt_or_ge q n |>.symm
    · rw [isFastLane?_of_le hr hq]
      simp [hq, n, i]
    obtain hi | hi := Nat.lt_or_ge i n
    · rw [isFastLane?_of_seat hr hq hi]
      simp [hi, Nat.not_le.mpr hq, n, i, f, q]
    -- Behind the last seat the answer has to be that the position is not in the lane.
    have hnone : ¬ (i < n ∧ (n ≤ q ∨ laneOffset n f i < q)) := fun h => Nat.not_lt.mpr hi h.1
    have hvalue := isFastLane?_of_behind hr hq hi frameIndex
    change _ = if i < f % n + q then some true
      else if i + n < UInt64.size then some false else none at hvalue
    rw [hvalue, decide_eq_false hnone]
    split
    next hend => exact iff_of_false (by simp) (by omega)
    next hend =>
      split
      next hsum => exact iff_of_true rfl (.inr (.inr ⟨Nat.not_lt.mp hend, hsum⟩))
      next hsum => exact iff_of_false (by simp) (by omega)
  · rw [isFastLane?_of_behind hr hq hi, if_pos hend]
  · rw [isFastLane?_of_behind hr hq hi, if_neg (Nat.not_lt.mpr hend), if_neg (Nat.not_lt.mpr hsum)]

/-- A lane of three of five seats goes around the end of the row and takes in the first seat. A
position that is far enough behind the last seat is kept out. -/
theorem first_of_five_in_lane :
    let r := after {} ((List.range 5).map fun i => .insert (.ofLowByte (.ofNat (i + 1))))
    r.size = 5 ∧ r.isFastLane? 0 3 3 = some true ∧ r.isFastLane 0 3 3 = true ∧
      r.isFastLane? 7 3 3 = some false ∧ r.isFastLane 7 3 3 = false := by
  intro r
  have hsize : r.size = 5 := by decide +kernel
  have hr : r.size ≤ 2 ^ 63 := by rw [hsize]; decide
  obtain ⟨hseat, -, -, hsame⟩ := lane_told_by_offset_iff hr 0 3 3
  obtain ⟨hbehind, -, -, hsame'⟩ := lane_told_by_offset_iff hr 7 3 3
  rw [hsize] at hseat hbehind
  have hin : r.isFastLane? 0 3 3 = some true := hseat.mpr (by decide)
  have hout : r.isFastLane? 7 3 3 = some false := hbehind.mpr (by decide)
  exact ⟨hsize, hin, hsame _ hin, hout, hsame' _ hout⟩

/-- Of five members the sixth is told to be in the lane of the fourth frame, and for the last word
the sum overflows. -/
theorem sixth_of_five_in_lane :
    let r := after {} ((List.range 5).map fun i => .insert (.ofLowByte (.ofNat (i + 1))))
    r.size = 5 ∧ r.isFastLane 5 3 3 = true ∧ r.isFastLane? 5 3 3 = some true ∧
      ¬ (5 < 5 ∧ (5 ≤ 3 ∨ laneOffset 5 3 5 < 3)) ∧ r.isFastLane? Word.last 3 3 = none := by
  decide +kernel

end Roster

end ReportQuorum
