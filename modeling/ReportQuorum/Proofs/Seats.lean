import Mathlib.Data.List.Nodup
import ReportQuorum.Roster

/-!
# Seats

A seat is taken by at most one member, and no change of a roster touches a seat that it is not
about: neither the member who joins, nor the one who leaves, nor the move of the last one to the
vacant seat changes anybody else's vote.

## Main definitions

* `Roster.votesFor`: how many members voted for a report last

## Main results

* `swapRemove_perm`: taking an item away leaves the others, in some order
* `Roster.mem_of_mem_insert`, `Roster.mem_of_mem_remove`: who is seated after a change
* `Roster.nodup_insert`, `Roster.nodup_remove`: nobody is seated twice
* `Roster.vote?_record`, `Roster.vote?_record_of_ne`: a recorded vote is that of its member only
* `Roster.vote?_insert`, `Roster.vote?_of_remove`: joining and leaving change nobody else's vote
-/

namespace ReportQuorum

section SwapRemove

variable {α : Type} {xs : List α} {i : Nat}

theorem set_perm_cons_eraseIdx (h : i < xs.length) (z : α) :
    (xs.set i z).Perm (z :: xs.eraseIdx i) := by
  induction xs generalizing i with
  | nil => cases h
  | cons x xs ih =>
    cases i with
    | zero => exact .refl _
    | succ i =>
      have hrest := ih (Nat.lt_of_succ_lt_succ h)
      exact (hrest.cons x).trans (.swap z x _)

/-- Taking an item away leaves the others, though not in their order. -/
theorem swapRemove_perm (h : i < xs.length) : (swapRemove xs i).Perm (xs.eraseIdx i) := by
  obtain rfl | ⟨ys, z, rfl⟩ := xs.eq_nil_or_concat
  · cases h
  rw [List.concat_eq_append] at h ⊢
  rw [List.length_append, List.length_singleton] at h
  rw [swapRemove, List.getLast?_concat]
  dsimp only
  obtain hlast | hlt := Nat.lt_succ_iff_lt_or_eq.mp h |>.symm
  · -- The last item is moved to its own place.
    subst hlast
    simp [List.eraseIdx_append]
  · rw [List.set_append_left _ _ hlt, List.dropLast_concat, List.eraseIdx_append_of_lt_length hlt]
    exact (set_perm_cons_eraseIdx hlt z).trans (List.perm_append_singleton z _).symm

end SwapRemove

namespace Roster

variable {r r' : Roster} {a : Address} {v : Vote} {s : Seat}

theorem contains_iff : r.contains a = true ↔ a ∈ r.members := by
  simp [contains, indexOf?, members]

theorem insert_eq_ok : r.insert a = .ok r' ↔
    a ∉ r.members ∧ a ≠ Octets.zero ∧ (⟨r.seats ++ [{ member := a }]⟩ : Roster) = r' := by
  rw [insert, ← contains_iff]
  by_cases hmember : r.contains a = true
  · simp [hmember]
  · by_cases hzero : a = Octets.zero <;> simp_all

theorem remove_eq_ok (h : r.remove a = .ok (r', v)) :
    ∃ i, i < r.seats.length ∧ r.vote? a = some v ∧ ⟨swapRemove r.seats i⟩ = r' := by
  rw [remove] at h
  split at h
  next i v hi hv =>
    cases h
    obtain ⟨hlt, -, -⟩ := List.findIdx?_eq_some_iff_getElem.mp hi
    exact ⟨i, hlt, hv, rfl⟩
  next => cases h

/-- Whoever is seated after somebody has joined was seated before, with the same vote, or is new and
has not voted. -/
theorem mem_of_mem_insert (h : r.insert a = .ok r') (hs : s ∈ r'.seats) :
    s ∈ r.seats ∧ s.member ≠ a ∨ s = { member := a } := by
  obtain ⟨hnew, -, rfl⟩ := insert_eq_ok.mp h
  obtain hold | hnow := List.mem_append.mp hs
  · refine .inl ⟨hold, ?_⟩
    rintro rfl
    exact hnew (List.mem_map_of_mem hold)
  · exact .inr (List.mem_singleton.mp hnow)

theorem nodup_insert (h : r.insert a = .ok r') (hr : r.members.Nodup) : r'.members.Nodup := by
  obtain ⟨hnew, -, rfl⟩ := insert_eq_ok.mp h
  simp only [members, List.map_append, List.map_cons, List.map_nil]
  exact (List.perm_append_singleton a _).nodup_iff.mpr (List.nodup_cons.mpr ⟨hnew, hr⟩)

/-- Whoever is seated after somebody has left was seated before, with the same vote. -/
theorem mem_of_mem_remove (h : r.remove a = .ok (r', v)) (hs : s ∈ r'.seats) : s ∈ r.seats := by
  obtain ⟨i, hi, -, rfl⟩ := remove_eq_ok h
  exact List.mem_of_mem_eraseIdx ((swapRemove_perm hi).mem_iff.mp hs)

theorem nodup_remove (h : r.remove a = .ok (r', v)) (hr : r.members.Nodup) : r'.members.Nodup := by
  obtain ⟨i, hi, -, rfl⟩ := remove_eq_ok h
  have hperm :
      (swapRemove r.seats i |>.map (·.member)).Perm ((r.seats.eraseIdx i).map (·.member)) :=
    (swapRemove_perm hi).map _
  refine hperm.nodup_iff.mpr ?_
  exact hr.sublist ((List.eraseIdx_sublist r.seats i).map _)

@[simp] theorem members_record (r : Roster) (a : Address) (v : Vote) :
    (r.record a v).members = r.members := by
  simp only [record, members, List.map_map]
  refine List.map_congr_left fun s _ => ?_
  by_cases h : s.member = a <;> simp [h]

theorem size_record (r : Roster) (a : Address) (v : Vote) : (r.record a v).size = r.size := by
  rw [size, size, record, List.length_map]

theorem count_record (r : Roster) (a : Address) (v : Vote) : (r.record a v).count = r.count := by
  rw [count, size_record, count]

/-- Recording a vote moves nobody to another seat. -/
theorem isSeatOf_record (a b : Address) (v : Vote) :
    (fun s : Seat => decide (s.member = b)) ∘
        (fun s : Seat => if s.member = a then { s with vote := v } else s) =
      fun s : Seat => decide (s.member = b) := by
  funext s
  dsimp only [Function.comp_apply]
  split <;> rfl

theorem indexOf?_record (r : Roster) (a b : Address) (v : Vote) :
    (r.record a v).indexOf? b = r.indexOf? b := by
  rw [indexOf?, record, List.findIdx?_map, isSeatOf_record, indexOf?]

theorem find?_record (r : Roster) (a b : Address) (v : Vote) :
    (r.record a v).seats.find? (·.member = b) =
      (r.seats.find? (·.member = b)).map fun s =>
        if s.member = a then { s with vote := v } else s := by
  rw [record, List.find?_map, isSeatOf_record]

theorem exists_seat (h : r.contains a = true) :
    ∃ s, r.seats.find? (·.member = a) = some s ∧ s.member = a := by
  obtain ⟨seat, hseat, rfl⟩ := List.mem_map.mp (contains_iff.mp h)
  obtain ⟨s, hs⟩ := Option.isSome_iff_exists.mp
    (List.find?_isSome.mpr ⟨seat, hseat, by simp⟩ :
      (r.seats.find? (·.member = seat.member)).isSome = true)
  exact ⟨s, hs, by simpa using List.find?_some hs⟩

/-- Every member has a vote on record. -/
theorem exists_vote? (h : r.contains a = true) : ∃ v, r.vote? a = some v := by
  obtain ⟨s, hs, -⟩ := exists_seat h
  exact ⟨s.vote, by rw [vote?, hs, Option.map_some]⟩

theorem vote?_eq_none (h : r.contains a = false) : r.vote? a = none := by
  rw [vote?, Option.map_eq_none_iff, List.find?_eq_none]
  intro s hs hmember
  have hseated := contains_iff.mpr (List.mem_map_of_mem (f := (·.member)) hs)
  rw [of_decide_eq_true hmember, h] at hseated
  cases hseated

/-- The vote of a member is the one at its seat. -/
theorem vote?_eq_some_iff (hr : r.members.Nodup) :
    r.vote? a = some v ↔ ({ member := a, vote := v } : Seat) ∈ r.seats := by
  rw [vote?, Option.map_eq_some_iff]
  constructor
  · rintro ⟨s, hs, rfl⟩
    obtain rfl : s.member = a := by simpa using List.find?_some hs
    exact List.mem_of_find?_eq_some hs
  · intro hseat
    obtain ⟨s, hs, hmember⟩ := exists_seat (contains_iff.mpr (List.mem_map_of_mem hseat))
    -- Nobody has two seats.
    have hsame := List.inj_on_of_nodup_map hr (List.mem_of_find?_eq_some hs) hseat hmember
    exact ⟨s, hs, by rw [hsame]⟩

/-- A member's vote stays when somebody joins. -/
theorem vote?_insert {b : Address} (h : r.insert b = .ok r') (hv : r.vote? a = some v) :
    r'.vote? a = some v := by
  obtain ⟨-, -, rfl⟩ := insert_eq_ok.mp h
  rw [vote?, Option.map_eq_some_iff] at hv ⊢
  obtain ⟨s, hs, rfl⟩ := hv
  exact ⟨s, by rw [List.find?_append, hs, Option.some_or], rfl⟩

/-- Whoever is still a member after somebody has left has the vote it had. -/
theorem vote?_of_remove {b : Address} {w : Vote} (h : r.remove b = .ok (r', w))
    (hr : r.members.Nodup) (hv : r'.vote? a = some v) : r.vote? a = some v := by
  rw [vote?_eq_some_iff (nodup_remove h hr)] at hv
  exact (vote?_eq_some_iff hr).mpr (mem_of_mem_remove h hv)

/-- A member whose vote is recorded has that vote. -/
theorem vote?_record (h : r.contains a = true) (v : Vote) : (r.record a v).vote? a = some v := by
  obtain ⟨s, hs, hmember⟩ := exists_seat h
  rw [vote?, find?_record, hs, Option.map_some, Option.map_some, if_pos hmember]

/-- Nobody else's vote changes. -/
theorem vote?_record_of_ne {b : Address} (h : b ≠ a) (v : Vote) :
    (r.record a v).vote? b = r.vote? b := by
  rw [vote?, find?_record, vote?]
  cases hs : r.seats.find? (·.member = b) with
  | none => rfl
  | some s =>
    have hmember : s.member = b := by simpa using List.find?_some hs
    rw [Option.map_some, if_neg fun heq => h (hmember.symm.trans heq)]

/-- The votes of two members are recorded in any order. -/
theorem record_comm {b : Address} (h : a ≠ b) (r : Roster) (v w : Vote) :
    (r.record a v).record b w = (r.record b w).record a v := by
  simp only [record, List.map_map]
  refine congrArg Roster.mk (List.map_congr_left fun s _ => ?_)
  by_cases ha : s.member = a
  · have hb : s.member ≠ b := fun heq => h (ha.symm.trans heq)
    simp [ha, h]
  · by_cases hb : s.member = b <;> simp [ha, hb, h.symm]

/-! ### Votes for a report -/

/-- How many members voted for a report last, for this reference slot. -/
def votesFor (r : Roster) (v : Vote) : Nat := r.seats.countP (·.vote = v)

theorem votesFor_le_size (r : Roster) (v : Vote) : r.votesFor v ≤ r.size := List.countP_le_length

theorem toNat_support {v : Vote} (h : r.size < UInt64.size) : (r.support v).toNat = r.votesFor v :=
  UInt64.toNat_ofNat_of_lt' (Nat.lt_of_le_of_lt (votesFor_le_size ..) h)

/-- A count that fits no word is cut off. -/
theorem toNat_support_le (r : Roster) (v : Vote) : (r.support v).toNat ≤ r.votesFor v := by
  rw [support, UInt64.toNat_ofNat']
  exact Nat.mod_le _ _

end Roster

end ReportQuorum
