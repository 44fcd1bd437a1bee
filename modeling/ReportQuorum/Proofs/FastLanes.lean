import Mathlib.Data.List.Perm.Subperm
import Mathlib.Data.Nat.ModEq
import ReportQuorum.Node.Basic
import ReportQuorum.Proofs.RosterChanges

/-!
# Fast lanes

The lane of a frame is as long as the quorum asks for, or takes in the whole roster, and moves on by
one seat from frame to frame, so that in as many frames as there are seats every member has its
turn equally often. Both come from one fact about the offset of a seat from the first one of the
lane, on the circle: it takes every value once, over the seats for one frame as well as over the
frames for one seat.

## Main definitions

* `Roster.laneOffset`: how far a seat lies behind the first one of the lane

## Main results

* `Roster.isFastLane_iff`: the lane takes in the offsets below the quorum
* `countP_range_lt_of_inj`: how many numbers of a permutation are below a bound
* `Roster.length_fastLane`, `Roster.mem_fastLane_iff`: how many members are in a lane, and which
* `Roster.turns_in_fastLane`: in how many lanes a member is
* `Engine.inLane_eq`: an account is in the lane of an engine if it is in the list of those that are
* `Roster.fastLane_rotates`: all this after every sequence of changes
-/

namespace ReportQuorum

/-! ### Counting -/

theorem countP_range_lt (n q : Nat) :
    (List.range n).countP (fun i => decide (i < q)) = min q n := by
  induction n with
  | zero => simp
  | succ n ih =>
    rw [List.range_succ, List.countP_append, ih, List.countP_singleton]
    split
    next h =>
      have := of_decide_eq_true h
      omega
    next h =>
      have : ¬ n < q := fun hlt => h (decide_eq_true hlt)
      omega

/-- If the numbers below `n` are permuted, as many go to a number below a bound as there are. -/
theorem countP_range_lt_of_inj {n : Nat} {g : Nat → Nat} (hlt : ∀ i < n, g i < n)
    (hinj : ∀ i < n, ∀ j < n, g i = g j → i = j) (q : Nat) :
    (List.range n).countP (fun i => decide (g i < q)) = min q n := by
  have hnodup : ((List.range n).map g).Nodup := by
    refine List.Nodup.map_on (fun i hi j hj => ?_) List.nodup_range
    exact hinj i (List.mem_range.mp hi) j (List.mem_range.mp hj)
  have hsubset : (List.range n).map g ⊆ List.range n := by
    intro k hk
    obtain ⟨i, hi, rfl⟩ := List.mem_map.mp hk
    exact List.mem_range.mpr (hlt i (List.mem_range.mp hi))
  -- As many different numbers below `n` as there are at all are all of them.
  have hperm : ((List.range n).map g).Perm (List.range n) :=
    (List.subperm_of_subset hnodup hsubset).perm_of_length_le (by rw [List.length_map])
  rw [← countP_range_lt n q, ← hperm.countP_eq fun i => decide (i < q), List.countP_map]
  rfl

namespace Roster

/-! ### Offsets -/

/-- How far position `i` lies behind the first position of the lane of frame `f`, if `n` seats are
closed to a circle. -/
def laneOffset (n f i : Nat) : Nat := (i + (n - f % n)) % n

variable {n f i k : Nat}

theorem add_laneOffset_mod (hi : i < n) : (f + laneOffset n f i) % n = i := by
  have hfirst : f % n < n := Nat.mod_lt f (by omega)
  calc (f + laneOffset n f i) % n = (f % n + (i + (n - f % n))) % n := by
        rw [laneOffset, Nat.add_mod_mod, Nat.mod_add_mod]
    _ = (i + n) % n := by rw [show f % n + (i + (n - f % n)) = i + n by omega]
    _ = i := by rw [Nat.add_mod_right, Nat.mod_eq_of_lt hi]

theorem laneOffset_lt (hi : i < n) : laneOffset n f i < n := Nat.mod_lt _ (by omega)

/-- The position at an offset. -/
theorem laneOffset_eq_iff (hi : i < n) (hk : k < n) : laneOffset n f i = k ↔ (f + k) % n = i := by
  constructor
  · rintro rfl
    exact add_laneOffset_mod hi
  · intro hplace
    have hsame : f + laneOffset n f i ≡ f + k [MOD n] := (add_laneOffset_mod hi).trans hplace.symm
    exact (hsame.add_left_cancel' f).eq_of_lt_of_lt (laneOffset_lt hi) hk

/-- Two positions are not at the same offset. -/
theorem laneOffset_inj {j : Nat} (hi : i < n) (hj : j < n)
    (h : laneOffset n f i = laneOffset n f j) : i = j := by
  rw [← add_laneOffset_mod (f := f) hi, h, add_laneOffset_mod hj]

/-- A position is not at the same offset in two of `n` frames that follow each other. -/
theorem laneOffset_frame_inj {l : Nat} (hi : i < n) (hk : k < n) (hl : l < n)
    (h : laneOffset n (f + k) i = laneOffset n (f + l) i) : k = l := by
  have hsame : f + k + laneOffset n (f + k) i ≡ f + l + laneOffset n (f + k) i [MOD n] := by
    rw [Nat.ModEq, add_laneOffset_mod hi, h, add_laneOffset_mod hi]
  exact ((hsame.add_right_cancel' _).add_left_cancel' f).eq_of_lt_of_lt hk hl

/-- Going around the end of the row at most once is enough. -/
theorem laneOffset_lt_iff (hi : i < n) {q : Nat} (hq : q < n) :
    laneOffset n f i < q ↔ f % n ≤ i ∧ i < f % n + q ∨ i + n < f % n + q := by
  have hfirst : f % n < n := Nat.mod_lt f (by omega)
  rw [laneOffset]
  by_cases hle : f % n ≤ i
  · -- The position comes before the end of the row, else the lane has gone around it.
    rw [show i + (n - f % n) = i - f % n + n by omega, Nat.add_mod_right,
      Nat.mod_eq_of_lt (by omega)]
    omega
  · rw [Nat.mod_eq_of_lt (by omega)]
    omega

/-! ### Lanes -/

variable {r : Roster} {frameIndex quorum : Word} {a : Address}

/-- A word counts the seats, as a row of addresses in memory has far less than `2 ^ 63` items. -/
theorem toNat_count (hr : r.size ≤ 2 ^ 63) : r.count.toNat = r.size :=
  UInt64.toNat_ofNat_of_lt' (by rw [UInt64.size]; omega)

/-- The lane takes in the positions whose offset is below the quorum. No sum of two positions is cut
off. -/
theorem isFastLane_iff (hr : r.size ≤ 2 ^ 63) (hi : i < r.size) :
    r.isFastLane (UInt64.ofNat i) frameIndex quorum = true ↔
      laneOffset r.size frameIndex.toNat i < quorum.toNat := by
  have hcount := toNat_count hr
  have hposition : (UInt64.ofNat i).toNat = i :=
    UInt64.toNat_ofNat_of_lt' (by rw [UInt64.size]; omega)
  rw [isFastLane]
  by_cases hall : r.count ≤ quorum
  · -- A quorum that covers the roster may be any word, as nothing is added to it.
    rw [if_pos hall, decide_eq_true_eq, UInt64.lt_iff_toNat_lt, hposition, hcount]
    rw [UInt64.le_iff_toNat_le, hcount] at hall
    exact iff_of_true hi (Nat.lt_of_lt_of_le (laneOffset_lt hi) hall)
  · rw [if_neg hall]
    rw [UInt64.le_iff_toNat_le, hcount, Nat.not_le] at hall
    have hfirst : frameIndex.toNat % r.size < r.size := Nat.mod_lt _ (by omega)
    have hend : (frameIndex % r.count + quorum).toNat =
        frameIndex.toNat % r.size + quorum.toNat := by
      rw [UInt64.toNat_add, UInt64.toNat_mod, hcount, Nat.mod_eq_of_lt (by omega)]
    have haround : (UInt64.ofNat i + r.count).toNat = i + r.size := by
      rw [UInt64.toNat_add, hposition, hcount, Nat.mod_eq_of_lt (by omega)]
    rw [laneOffset_lt_iff hi hall, Bool.or_eq_true, Bool.and_eq_true, decide_eq_true_eq,
      decide_eq_true_eq, decide_eq_true_eq, UInt64.le_iff_toNat_le, UInt64.lt_iff_toNat_lt,
      UInt64.lt_iff_toNat_lt, hend, haround, hposition, UInt64.toNat_mod, hcount]

theorem mem_fastLane : a ∈ r.fastLane frameIndex quorum ↔
    ∃ i, r.members[i]? = some a ∧ r.isFastLane (UInt64.ofNat i) frameIndex quorum = true := by
  simp [fastLane, List.mk_mem_zipIdx_iff_getElem?]

theorem fastLane_sublist (r : Roster) (frameIndex quorum : Word) :
    (r.fastLane frameIndex quorum).Sublist r.members := by
  have h : (r.fastLane frameIndex quorum).Sublist (r.members.zipIdx.map (·.1)) :=
    List.filter_sublist.map _
  rwa [List.zipIdx_map_fst] at h

theorem lt_size_of_getElem? (h : r.members[i]? = some a) : i < r.size :=
  r.length_members ▸ (List.getElem?_eq_some_iff.mp h).1

/-- A lane is as long as the quorum asks for, or takes in the whole roster. -/
theorem length_fastLane (hr : r.size ≤ 2 ^ 63) :
    (r.fastLane frameIndex quorum).length = min quorum.toNat r.size := by
  have hpositions : r.members.zipIdx.map (·.2) = List.range r.size := by
    rw [List.zipIdx_map_snd, ← List.range_eq_range', length_members]
  rw [fastLane, List.length_map, ← List.countP_eq_length_filter,
    ← countP_range_lt_of_inj (fun _ hi => laneOffset_lt (f := frameIndex.toNat) hi)
      (fun _ hi _ hj => laneOffset_inj hi hj) quorum.toNat,
    ← hpositions, List.countP_map]
  refine List.countP_congr fun seat hseat => ?_
  obtain ⟨b, i⟩ := seat
  have hi := lt_size_of_getElem? (List.mk_mem_zipIdx_iff_getElem?.mp hseat)
  rw [isFastLane_iff hr hi, Function.comp_apply, decide_eq_true_eq]

/-- A lane takes in the seats that follow its first one. -/
theorem mem_fastLane_iff (hr : r.size ≤ 2 ^ 63) : a ∈ r.fastLane frameIndex quorum ↔
    ∃ k < min quorum.toNat r.size, r.members[(frameIndex.toNat + k) % r.size]? = some a := by
  rw [mem_fastLane]
  constructor
  · rintro ⟨i, hmember, hlane⟩
    have hi := lt_size_of_getElem? hmember
    rw [isFastLane_iff hr hi] at hlane
    refine ⟨_, Nat.lt_min.mpr ⟨hlane, laneOffset_lt hi⟩, ?_⟩
    rw [add_laneOffset_mod hi, hmember]
  · rintro ⟨k, hk, hmember⟩
    obtain ⟨hq, hn⟩ := Nat.lt_min.mp hk
    have hi := lt_size_of_getElem? hmember
    refine ⟨_, hmember, (isFastLane_iff hr hi).mpr ?_⟩
    rwa [(laneOffset_eq_iff hi hn).mpr rfl]

theorem mem_fastLane_iff_offset (hr : r.size ≤ 2 ^ 63) (hnodup : r.members.Nodup)
    (hi : r.members[i]? = some a) :
    a ∈ r.fastLane frameIndex quorum ↔ laneOffset r.size frameIndex.toNat i < quorum.toNat := by
  rw [mem_fastLane, ← isFastLane_iff hr (lt_size_of_getElem? hi)]
  constructor
  · rintro ⟨j, hj, hlane⟩
    rw [← indexOf?_eq_some_iff hnodup] at hi hj
    rwa [Option.some.inj (hi.symm.trans hj)]
  · exact fun hlane => ⟨i, hi, hlane⟩

/-- In as many frames as there are seats every member has its turn equally often. -/
theorem turns_in_fastLane (hr : r.size ≤ 2 ^ 63) (hnodup : r.members.Nodup) (ha : a ∈ r.members)
    (hf : frameIndex.toNat + r.size ≤ UInt64.size) :
    (List.range r.size).countP
        (fun k => decide (a ∈ r.fastLane (frameIndex + UInt64.ofNat k) quorum)) =
      min quorum.toNat r.size := by
  obtain ⟨i, hi⟩ := List.mem_iff_getElem?.mp ha
  have hlt := lt_size_of_getElem? hi
  rw [← countP_range_lt_of_inj (g := fun k => laneOffset r.size (frameIndex.toNat + k) i)
    (fun _ _ => laneOffset_lt hlt) (fun _ hk _ hl => laneOffset_frame_inj hlt hk hl)]
  refine List.countP_congr fun k hk => ?_
  have hk' := List.mem_range.mp hk
  have hindex : (frameIndex + UInt64.ofNat k).toNat = frameIndex.toNat + k := by
    rw [UInt64.toNat_add, UInt64.toNat_ofNat_of_lt' (by omega), Nat.mod_eq_of_lt]
    exact Nat.lt_of_lt_of_le (by omega) hf
  rw [decide_eq_true_eq, decide_eq_true_eq, mem_fastLane_iff_offset hr hnodup hi, hindex]

end Roster

/-! ### The lane of an engine -/

namespace Engine

variable {π ε : Type} {e : Engine π}

/-- An account is in the lane of an engine if it is in the list of those that are. -/
theorem inLane_eq (h : e.roster.members.Nodup) (frame : Frame) (a : Address) :
    e.inLane frame a = decide (a ∈ e.roster.fastLane frame.index e.quorum) := by
  rw [inLane]
  cases hi : e.roster.indexOf? a with
  | none =>
    have hout : a ∉ e.roster.members := by
      rw [← Roster.contains_iff, Roster.contains, hi]
      exact Bool.false_ne_true
    exact (decide_eq_false fun hlane => hout ((Roster.fastLane_sublist ..).subset hlane)).symm
  | some i =>
    rw [Bool.eq_iff_iff, decide_eq_true_eq, Roster.mem_fastLane]
    simp only [← Roster.indexOf?_eq_some_iff h, hi]
    simp

theorem isFastLaneMember_eq (h : e.roster.members.Nodup) (now : Word) (a : Address) :
    e.isFastLaneMember now a = (e.fastLaneMembers now).map fun lane => decide (a ∈ lane) := by
  rw [isFastLaneMember, fastLaneMembers]
  cases e.currentFrame now with
  | error => rfl
  | ok frame => exact congrArg Except.ok (inLane_eq h frame a)

/-- An account that is no member is in no lane. -/
theorem isFastLane_memberView [ReportProcessor π ε] (h : e.roster.members.Nodup) (now : Word)
    (a : Address) :
    (e.memberView now a).map (·.isFastLane) =
      (e.fastLaneMembers now).map fun lane => decide (a ∈ lane) := by
  rw [← isFastLaneMember_eq h, memberView, isFastLaneMember]
  cases e.currentFrame now with
  | error => rfl
  | ok frame =>
    by_cases hmember : e.roster.contains a = true
    · obtain ⟨vote, hvote⟩ := Roster.exists_vote? hmember
      rw [hvote]
      rfl
    · have hout : e.inLane frame a = false := by
        rw [inLane, Option.not_isSome_iff_eq_none.mp hmember]
      rw [Roster.vote?_eq_none (Bool.eq_false_iff.mpr hmember)]
      exact congrArg Except.ok hout.symm

end Engine

namespace Roster

/-- After every sequence of changes that leaves so few members that the sum of two positions fits a
word, the lane of a frame is as long as the quorum asks for, or takes in the whole roster: it holds
the members in the seats that follow its first one, in the order of the roster and without
repetition. In as many frames as there are seats every member has its turn equally often. An engine
with this roster gives this lane, and tells every account alike whether it is in the lane. -/
theorem fastLane_rotates {π ε : Type} [ReportProcessor π ε] (changes : List Change)
    (hsize : (after {} changes).size ≤ 2 ^ 63) (frameIndex quorum : Word) :
    let r := after {} changes
    let lane := r.fastLane frameIndex quorum
    (lane.Sublist r.members ∧ lane.Nodup ∧ lane.length = min quorum.toNat r.size ∧
      ∀ a, a ∈ lane ↔ ∃ k < min quorum.toNat r.size,
        r.members[(frameIndex.toNat + k) % r.size]? = some a) ∧
    (frameIndex.toNat + r.size ≤ UInt64.size → ∀ a ∈ r.members,
      (List.range r.size).countP
          (fun k => decide (a ∈ r.fastLane (frameIndex + UInt64.ofNat k) quorum)) =
        min quorum.toNat r.size) ∧
    ∀ (e : Engine π) (now : Word), e.roster = r →
      (e.fastLaneMembers now =
        (e.currentFrame now).map fun frame => r.fastLane frame.index e.quorum) ∧
      ∀ a,
        e.isFastLaneMember now a = (e.fastLaneMembers now).map (fun lane => decide (a ∈ lane)) ∧
        (e.memberView now a).map (·.isFastLane) =
          (e.fastLaneMembers now).map fun lane => decide (a ∈ lane) := by
  intro r lane
  have hnodup : r.members.Nodup := nodup_after (r := {}) List.nodup_nil changes
  have hsublist : lane.Sublist r.members := fastLane_sublist ..
  refine ⟨⟨hsublist, hnodup.sublist hsublist, length_fastLane hsize,
    fun a => mem_fastLane_iff hsize⟩, fun hf a ha => turns_in_fastLane hsize hnodup ha hf, ?_⟩
  intro e now hroster
  rw [← hroster] at hnodup
  refine ⟨?_, fun a => ⟨Engine.isFastLaneMember_eq hnodup now a,
    Engine.isFastLane_memberView hnodup now a⟩⟩
  rw [← hroster, Engine.fastLaneMembers]
  rfl

/-- Five members and a lane of three that goes around the end of the row. In the last five frames
whose index fits a word, the first member has three turns. -/
theorem three_turns_of_five :
    let member (i : Nat) : Address := .ofLowByte (.ofNat (i + 1))
    let r := after {} ((List.range 5).map fun i => .insert (member i))
    let now := TimeGrid.standard.timeOfSlot 21632
    ∃ n, Node.create (.sample member 5) 0 = .ok n ∧ n.engine.roster = r ∧
      n.engine.currentFrame now = .ok ⟨3, 21631, 28831⟩ ∧
      n.engine.fastLaneMembers now = .ok [member 0, member 3, member 4] ∧
      n.engine.isFastLaneMember now (member 2) = .ok false ∧
      (n.engine.memberView now (member 0)).map (·.isFastLane) = .ok true ∧
      (List.range 5).countP
        (fun k => decide (member 0 ∈ r.fastLane (0xfffffffffffffffb + UInt64.ofNat k) 3)) = 3 := by
  intro member r now
  have hmade : (Node.create (.sample member 5) 0).toOption.any (fun n => decide (
      n.engine.roster = r ∧ n.engine.quorum = 3 ∧
        (n.engine.currentFrame now).toOption = some ⟨3, 21631, 28831⟩)) = true := by
    decide +kernel
  obtain ⟨n, hn, hroster, hquorum, hf⟩ := exists_of_any hmade
  rw [toOption_eq_some] at hf
  obtain ⟨-, hturns, hagree⟩ := fastLane_rotates (π := Oracle ReportLog)
    ((List.range 5).map fun i => .insert (member i)) (by decide +kernel) 0xfffffffffffffffb 3
  obtain ⟨hlane, hmembers⟩ := hagree n.engine now hroster
  replace hlane : n.engine.fastLaneMembers now = .ok [member 0, member 3, member 4] := by
    rw [hlane, hf, hquorum]
    exact congrArg Except.ok (by decide +kernel)
  refine ⟨n, hn, hroster, hf, hlane, ?_, ?_, ?_⟩
  · rw [(hmembers _).1, hlane]
    exact congrArg Except.ok (by decide +kernel)
  · rw [(hmembers _).2, hlane]
    exact congrArg Except.ok (by decide +kernel)
  · exact hturns (by decide +kernel) (member 0) (by decide +kernel)

end Roster

end ReportQuorum
