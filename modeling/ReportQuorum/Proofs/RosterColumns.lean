import ReportQuorum.Proofs.RosterChanges

/-!
# A roster in columns

A roster can be kept in three parts that are changed one by one: the row of the members, the row of
their votes, and an index that tells the position of each member. When a member leaves, the last one
is moved in both rows, and the index has to be patched for it, unless it is the one that leaves. The
index is never wrong, so no row is ever read beyond its end, and the three parts do what the list of
seats does.

## Main definitions

* `Roster.Columns`: the three parts
* `Roster.Columns.perform`, `Roster.Columns.after`: changes of the parts
* `Roster.Columns.roster`: the list of seats that the parts stand for
* `Roster.Columns.Coherent`: the rows are equally long, and the index tells where members stand

## Main results

* `getElem?_swapRemove`: only the last item of a list is moved when another one is taken out
* `Roster.Columns.Coherent.act`: every change leaves the parts coherent
* `Roster.Columns.Coherent.perform_roster`: coherent parts do what the list of seats does
* `Roster.Columns.Coherent.vote?_vacated`: whoever stays when a member leaves keeps its vote
* `Roster.Columns.faithful`: all this after every sequence of changes
-/

namespace ReportQuorum

/-! ### Taking an item out -/

section SwapRemove

variable {α β γ : Type} {xs : List α} {ys : List β} {i : Nat}

theorem length_swapRemove (xs : List α) (i : Nat) : (swapRemove xs i).length = xs.length - 1 := by
  rw [swapRemove]
  split
  next h => rw [List.getLast?_eq_none_iff.mp h]; rfl
  next => rw [List.length_dropLast, List.length_set]

/-- Only the last item is moved, and only if it is not the one that is taken out. -/
theorem getElem?_swapRemove (h : i < xs.length) (j : Nat) : (swapRemove xs i)[j]? =
    if j + 1 < xs.length then if j = i then xs.getLast? else xs[j]? else none := by
  obtain ⟨z, hz⟩ : ∃ z, xs.getLast? = some z := by
    rw [List.getLast?_eq_getElem?]
    exact ⟨_, List.getElem?_eq_getElem (by omega)⟩
  rw [swapRemove, hz]
  dsimp only
  rw [List.getElem?_dropLast, List.length_set, List.getElem?_set]
  by_cases hj : j + 1 < xs.length
  · rw [if_pos (by omega), if_pos hj, if_pos h]
    simp only [eq_comm]
  · rw [if_neg (by omega), if_neg hj]

/-- Two rows from which the item at the same position is taken out stay side by side. -/
theorem zipWith_swapRemove (hlength : xs.length = ys.length) (h : i < xs.length) (f : α → β → γ) :
    List.zipWith f (swapRemove xs i) (swapRemove ys i) = swapRemove (List.zipWith f xs ys) i := by
  have hzip : (List.zipWith f xs ys).length = xs.length := by
    rw [List.length_zipWith, hlength, Nat.min_self]
  refine List.ext_getElem? fun j => ?_
  rw [List.getElem?_zipWith', getElem?_swapRemove h, getElem?_swapRemove (hlength ▸ h),
    getElem?_swapRemove (hzip.symm ▸ h), hzip, ← hlength]
  by_cases hj : j + 1 < xs.length
  · by_cases hsame : j = i
    · simp only [if_pos hj, if_pos hsame]
      rw [List.getLast?_eq_getElem?, List.getLast?_eq_getElem?, List.getLast?_eq_getElem?, hzip,
        ← hlength, List.getElem?_zipWith']
    · simp only [if_pos hj, if_neg hsame, List.getElem?_zipWith']
  · simp only [if_neg hj, Option.map_none, Option.bind_none]

end SwapRemove

instance {n : Nat} : Hashable (Octets n) := ⟨fun x => hash x.bytes⟩

namespace Roster

/-- A roster in three parts. -/
structure Columns where
  members : List Address := []
  votes : List Vote := []
  /-- The position of each member. -/
  positions : Std.HashMap Address Nat := {}

namespace Columns

/-! ### Changes -/

/-- Takes out the item at a position, to which the last item is moved. -/
def takeOut {α : Type} (xs : List α) (i : Nat) : Except Fault (α × List α) :=
  match xs[i]? with
  | some x => .ok (x, swapRemove xs i)
  | none => .error (.noSeat i)

/-- Seats a new member at the end. Also gives its position. -/
def insert (t : Columns) (a : Address) : Except Fault (Columns × Nat) :=
  if t.positions.contains a then .error (.refused (.duplicateMember a))
  else if a.isZero then .error (.refused .zeroAddress)
  else
    let i := t.members.length
    .ok (⟨t.members ++ [a], t.votes ++ [Vote.blank], t.positions.insert a i⟩, i)

/-- The index after a member has left a position of a row that now is `members`. If the last one has
left, nobody stands where it stood, and there is nothing to patch. -/
def patched (positions : Std.HashMap Address Nat) (a : Address) (i : Nat) (members : List Address) :
    Std.HashMap Address Nat :=
  match members[i]? with
  | some moved => (positions.erase a).insert moved i
  | none => positions.erase a

/-- Takes a member's seat away; the last member moves to it. Also gives the vote of the member. -/
def remove (t : Columns) (a : Address) : Except Fault (Columns × Vote) :=
  match t.positions[a]? with
  | none => .error (.refused (.nonMember a))
  | some i => do
    let (_, members) ← takeOut t.members i
    let (vote, votes) ← takeOut t.votes i
    return ({ members, votes, positions := patched t.positions a i members }, vote)

/-- Records the vote of the member at a position. -/
def record (t : Columns) (i : Nat) (v : Vote) : Except Fault Columns :=
  if i < t.votes.length then .ok { t with votes := t.votes.set i v } else .error (.noSeat i)

/-- The last vote of a member, looked up by its position. -/
def vote? (t : Columns) (a : Address) : Except Fault (Option Vote) :=
  match t.positions[a]? with
  | none => .ok none
  | some i =>
    match t.votes[i]? with
    | some v => .ok (some v)
    | none => .error (.noSeat i)

/-- Makes a change. -/
def perform (t : Columns) : Change → Except Fault (Columns × Answer)
  | .insert a => do
    let (t', i) ← t.insert a
    return (t', .seated i)
  | .remove a => do
    let (t', v) ← t.remove a
    return (t', .left v)
  | .record i v => do
    let t' ← t.record i v
    return (t', .recorded)

/-- The columns after a change, which are the same if the change is not made. -/
def act (t : Columns) (c : Change) : Columns :=
  match t.perform c with
  | .ok (t', _) => t'
  | .error _ => t

/-- The columns after a sequence of changes. -/
def after (t : Columns) (changes : List Change) : Columns := changes.foldl act t

/-- The list of seats that is kept in columns. -/
def roster (t : Columns) : Roster := ⟨List.zipWith Seat.mk t.members t.votes⟩

/-! ### Coherence -/

/-- The rows are equally long, and the index tells where each member stands. -/
structure Coherent (t : Columns) : Prop where
  lengths : t.members.length = t.votes.length
  position_iff : ∀ (a : Address) (i : Nat), t.positions[a]? = some i ↔ t.members[i]? = some a

variable {t t' : Columns} {a b : Address} {i j : Nat} {v : Vote}

theorem coherent_empty : Coherent {} := ⟨rfl, fun a i => by simp⟩

namespace Coherent

/-- A member stands in one place. -/
theorem position_inj (h : t.Coherent) (hi : t.members[i]? = some a) (hj : t.members[j]? = some a) :
    i = j := by
  rw [← h.position_iff] at hi hj
  exact Option.some.inj (hi.symm.trans hj)

theorem nodup (h : t.Coherent) : t.members.Nodup := by
  rw [List.nodup_iff_getElem?_ne_getElem?]
  intro i j hij hj hsame
  rw [List.getElem?_eq_getElem hj] at hsame
  exact Nat.ne_of_lt hij (h.position_inj hsame (List.getElem?_eq_getElem hj))

theorem contains_iff (h : t.Coherent) : t.positions.contains a = true ↔ a ∈ t.members := by
  rw [Std.HashMap.contains_eq_isSome_getElem?, Option.isSome_iff_exists, List.mem_iff_getElem?]
  simp only [h.position_iff]

theorem lt_length (h : t.Coherent) (hi : t.positions[a]? = some i) : i < t.members.length :=
  (List.getElem?_eq_some_iff.mp ((h.position_iff a i).mp hi)).1

theorem exists_vote (h : t.Coherent) (hi : t.positions[a]? = some i) :
    ∃ v, t.votes[i]? = some v :=
  ⟨_, List.getElem?_eq_getElem (h.lengths ▸ h.lt_length hi)⟩

end Coherent

/-! ### What the parts are after a change -/

/-- The columns after the member at a position has left. -/
def vacated (t : Columns) (a : Address) (i : Nat) : Columns :=
  { members := swapRemove t.members i
    votes := swapRemove t.votes i
    positions := patched t.positions a i (swapRemove t.members i) }

theorem remove_of_notMem (h : t.positions[a]? = none) :
    t.remove a = .error (.refused (.nonMember a)) := by
  rw [remove, h]

theorem getElem?_patched (positions : Std.HashMap Address Nat) (members : List Address) :
    (patched positions a i members)[b]? =
      if members[i]? = some b then some i else if b = a then none else positions[b]? := by
  rw [patched]
  cases members[i]? with
  | none => simp [Std.HashMap.getElem?_erase, @eq_comm _ b a]
  | some moved => simp [Std.HashMap.getElem?_insert, Std.HashMap.getElem?_erase, @eq_comm _ b a]

namespace Coherent

theorem insert_eq_ok (h : t.Coherent) : t.insert a = .ok (t', i) ↔
    a ∉ t.members ∧ a ≠ Octets.zero ∧ t.members.length = i ∧
      ⟨t.members ++ [a], t.votes ++ [Vote.blank], t.positions.insert a t.members.length⟩ = t' := by
  rw [Columns.insert, ← h.contains_iff, refusal_eq_ok (by simp), refusal_eq_ok (by simp)]
  simp [and_comm]

/-- No row is read beyond its end when a member leaves. -/
theorem remove_of_mem (h : t.Coherent) (hi : t.positions[a]? = some i) :
    ∃ v, t.votes[i]? = some v ∧ t.remove a = .ok (t.vacated a i, v) := by
  obtain ⟨v, hv⟩ := h.exists_vote hi
  refine ⟨v, hv, ?_⟩
  rw [remove, hi]
  simp [takeOut, (h.position_iff a i).mp hi, hv, bind, Except.bind, pure, Except.pure, vacated]

/-! ### Every change leaves the parts coherent -/

theorem insert (h : t.Coherent) (ht : t.insert a = .ok (t', i)) : t'.Coherent := by
  obtain ⟨hnew, -, -, rfl⟩ := h.insert_eq_ok.mp ht
  refine ⟨by simp [h.lengths], fun b j => ?_⟩
  have hb := h.position_iff b j
  rw [Std.HashMap.getElem?_insert, List.getElem?_append]
  by_cases hsame : a = b
  · subst hsame
    -- The new member stands nowhere else.
    have hnowhere : t.members[j]? ≠ some a := fun hj => hnew (List.mem_of_getElem? hj)
    grind
  · grind

theorem vacated (h : t.Coherent) (hi : t.positions[a]? = some i) : (t.vacated a i).Coherent := by
  refine ⟨by simp [Columns.vacated, length_swapRemove, h.lengths], fun b j => ?_⟩
  have hlt := h.lt_length hi
  have ha := (h.position_iff a i).mp hi
  have hb := h.position_iff b j
  have hlast : t.members.getLast? = t.members[t.members.length - 1]? := List.getLast?_eq_getElem?
  rw [Columns.vacated, getElem?_patched, getElem?_swapRemove hlt, getElem?_swapRemove hlt,
    if_pos rfl]
  by_cases hmoved : i + 1 < t.members.length
  · rw [if_pos hmoved]
    by_cases hlastb : t.members.getLast? = some b
    · -- The last member stands at the vacated place now, and no longer where it stood.
      rw [if_pos hlastb]
      have hplace (hj : t.members[j]? = some b) : j = t.members.length - 1 :=
        h.position_inj hj (hlast ▸ hlastb)
      grind
    · rw [if_neg hlastb]
      by_cases hsame : b = a
      · -- The one that leaves stood nowhere else.
        have hplace (hj : t.members[j]? = some b) : j = i := h.position_inj (hsame ▸ hj) ha
        grind
      · -- Anybody else has stood before the last one, and still stands there.
        grind
  · -- The one that leaves is the last one, so that nobody is moved.
    rw [if_neg hmoved, if_neg nofun]
    have hplace (hj : t.members[j]? = some a) : j = i := h.position_inj hj ha
    grind

theorem record (h : t.Coherent) (ht : t.record i v = .ok t') : t'.Coherent := by
  rw [Columns.record] at ht
  split at ht
  · cases ht
    exact ⟨by rw [List.length_set]; exact h.lengths, h.position_iff⟩
  · cases ht

theorem remove_eq_ok (h : t.Coherent) (ht : t.remove a = .ok (t', v)) :
    ∃ i, t.positions[a]? = some i ∧ t.votes[i]? = some v ∧ t.vacated a i = t' := by
  cases hi : t.positions[a]? with
  | none =>
    rw [remove_of_notMem hi] at ht
    cases ht
  | some i =>
    obtain ⟨v, hv, hremove⟩ := h.remove_of_mem hi
    rw [hremove] at ht
    cases ht
    exact ⟨i, rfl, hv, rfl⟩

theorem remove (h : t.Coherent) (ht : t.remove a = .ok (t', v)) : t'.Coherent := by
  obtain ⟨i, hi, -, rfl⟩ := h.remove_eq_ok ht
  exact h.vacated hi

theorem act (h : t.Coherent) (c : Change) : (t.act c).Coherent := by
  rw [Columns.act]
  split
  next t' answer hmade =>
    cases c with
    | insert a =>
      simp only [perform, bind_eq_ok, pure_eq_ok, Prod.mk.injEq] at hmade
      obtain ⟨⟨_, i⟩, hmade, rfl, -⟩ := hmade
      exact h.insert hmade
    | remove a =>
      simp only [perform, bind_eq_ok, pure_eq_ok, Prod.mk.injEq] at hmade
      obtain ⟨⟨_, v⟩, hmade, rfl, -⟩ := hmade
      exact h.remove hmade
    | record i v =>
      simp only [perform, bind_eq_ok, pure_eq_ok, Prod.mk.injEq] at hmade
      obtain ⟨_, hmade, rfl, -⟩ := hmade
      exact h.record hmade
  next => exact h

theorem after (h : t.Coherent) (changes : List Change) : (t.after changes).Coherent := by
  induction changes generalizing t with
  | nil => exact h
  | cons c changes ih => exact ih (h.act c)

end Coherent

/-! ### The list of seats that is kept -/

theorem getElem?_roster : t.roster.seats[i]? = some ⟨a, v⟩ ↔
    t.members[i]? = some a ∧ t.votes[i]? = some v := by
  rw [roster, List.getElem?_zipWith_eq_some]
  constructor
  · rintro ⟨_, _, ha, hv, ⟨⟩⟩
    exact ⟨ha, hv⟩
  · rintro ⟨ha, hv⟩
    exact ⟨a, v, ha, hv, rfl⟩

namespace Coherent

theorem members_roster (h : t.Coherent) : t.roster.members = t.members := by
  rw [Roster.members, roster, List.map_zipWith]
  refine List.ext_getElem (by simp [h.lengths]) fun i _ _ => ?_
  rw [List.getElem_zipWith]

theorem size_roster (h : t.Coherent) : t.roster.size = t.members.length := by
  rw [← h.members_roster, length_members]

/-- The index tells what a search through the seats finds. -/
theorem indexOf?_roster (h : t.Coherent) (a : Address) : t.roster.indexOf? a = t.positions[a]? := by
  refine Option.ext fun i => ?_
  rw [indexOf?_eq_some_iff (h.members_roster ▸ h.nodup), h.members_roster, h.position_iff]

theorem contains_roster (h : t.Coherent) (a : Address) :
    t.roster.contains a = t.positions.contains a := by
  rw [contains, h.indexOf?_roster, Std.HashMap.contains_eq_isSome_getElem?]

theorem vote?_roster_of_mem (h : t.Coherent) (hi : t.positions[a]? = some i)
    (hv : t.votes[i]? = some v) : t.roster.vote? a = some v := by
  rw [vote?_eq_some_iff (h.members_roster ▸ h.nodup)]
  exact List.mem_of_getElem? (getElem?_roster.mpr ⟨(h.position_iff a i).mp hi, hv⟩)

/-- A vote is looked up at the position that the index tells, and is that of the member. -/
theorem vote?_roster (h : t.Coherent) (a : Address) : t.vote? a = .ok (t.roster.vote? a) := by
  rw [Columns.vote?]
  cases hi : t.positions[a]? with
  | none =>
    have hout : t.roster.contains a = false := by
      rw [contains, h.indexOf?_roster, hi, Option.isSome_none]
    rw [vote?_eq_none hout]
  | some i =>
    obtain ⟨v, hv⟩ := h.exists_vote hi
    dsimp only
    rw [hv, h.vote?_roster_of_mem hi hv]

/-! ### The columns do what the list of seats does -/

theorem roster_append (h : t.Coherent) (a : Address) (positions : Std.HashMap Address Nat) :
    roster ⟨t.members ++ [a], t.votes ++ [Vote.blank], positions⟩ =
      ⟨t.roster.seats ++ [{ member := a }]⟩ :=
  congrArg Roster.mk (List.zipWith_append h.lengths)

theorem roster_vacated (h : t.Coherent) (hi : t.positions[a]? = some i) :
    (t.vacated a i).roster = ⟨swapRemove t.roster.seats i⟩ :=
  congrArg Roster.mk (zipWith_swapRemove h.lengths (h.lt_length hi) Seat.mk)

/-- The vote at a position is that of the member that stands there, and of nobody else. -/
theorem roster_set (h : t.Coherent) (ha : t.members[i]? = some a) (v : Vote) :
    roster { t with votes := t.votes.set i v } = t.roster.record a v := by
  refine congrArg Roster.mk (List.ext_getElem (by simp [roster]) fun j hj _ => ?_)
  have hj' : j < t.members.length := by simp at hj; omega
  have hplace : t.members[j] = a ↔ i = j := by
    constructor
    · intro hmember
      exact h.position_inj ha (List.getElem?_eq_some_iff.mpr ⟨_, hmember⟩)
    · rintro rfl
      exact (List.getElem?_eq_some_iff.mp ha).2
  simp only [roster, List.getElem_map, List.getElem_zipWith, List.getElem_set, hplace]
  split <;> rfl

theorem perform_insert (h : t.Coherent) (a : Address) :
    (t.perform (.insert a)).map (Prod.map roster id) = t.roster.perform (.insert a) := by
  rw [perform, Roster.perform, Columns.insert, Roster.insert, h.contains_roster]
  by_cases hseated : t.positions.contains a = true
  · rw [if_pos hseated, if_pos hseated]
    rfl
  rw [if_neg hseated, if_neg hseated]
  by_cases hzero : a.isZero = true
  · rw [if_pos hzero, if_pos hzero]
    rfl
  rw [if_neg hzero, if_neg hzero, h.size_roster, ← h.roster_append]
  rfl

theorem perform_remove (h : t.Coherent) (a : Address) :
    (t.perform (.remove a)).map (Prod.map roster id) = t.roster.perform (.remove a) := by
  rw [perform, Roster.perform, Roster.remove, ← indexOf?, h.indexOf?_roster]
  cases hi : t.positions[a]? with
  | none =>
    rw [remove_of_notMem hi]
    rfl
  | some i =>
    obtain ⟨v, hv, hremove⟩ := h.remove_of_mem hi
    rw [hremove, h.vote?_roster_of_mem hi hv]
    dsimp only
    rw [← h.roster_vacated hi]
    rfl

theorem perform_record (h : t.Coherent) (i : Nat) (v : Vote) :
    (t.perform (.record i v)).map (Prod.map roster id) = t.roster.perform (.record i v) := by
  rw [perform, Roster.perform, h.members_roster, Columns.record, ← h.lengths]
  by_cases hi : i < t.members.length
  · rw [if_pos hi, List.getElem?_eq_getElem hi]
    dsimp only
    rw [← h.roster_set (List.getElem?_eq_getElem hi)]
    rfl
  · rw [if_neg hi, List.getElem?_eq_none (by omega)]
    rfl

theorem perform_roster (h : t.Coherent) (c : Change) :
    (t.perform c).map (Prod.map roster id) = t.roster.perform c := by
  cases c with
  | insert a => exact h.perform_insert a
  | remove a => exact h.perform_remove a
  | record i v => exact h.perform_record i v

/-- Only a vote can be meant for a position beyond the rows. -/
theorem perform_eq_noSeat_iff (h : t.Coherent) (c : Change) (i : Nat) :
    t.perform c = .error (.noSeat i) ↔ ∃ v, c = .record i v ∧ t.votes.length ≤ i := by
  rw [← h.lengths, ← h.size_roster, ← Roster.perform_eq_noSeat_iff, ← h.perform_roster]
  cases t.perform c <;> simp [Except.map]

theorem act_roster (h : t.Coherent) (c : Change) : (t.act c).roster = t.roster.act c := by
  rw [Columns.act, Roster.act, ← h.perform_roster]
  cases t.perform c <;> rfl

theorem after_roster (h : t.Coherent) (changes : List Change) :
    (t.after changes).roster = t.roster.after changes := by
  induction changes generalizing t with
  | nil => rfl
  | cons c changes ih =>
    refine (ih (h.act c)).trans ?_
    rw [h.act_roster]
    rfl

/-! ### What becomes of the others when a member leaves -/

/-- Only the last member is moved, to the place of the one that leaves. -/
theorem position_vacated (h : t.Coherent) (hi : t.positions[a]? = some i) (b : Address) :
    (t.vacated a i).positions[b]? =
      if b = a then none
      else if t.members.getLast? = some b then some i else t.positions[b]? := by
  have ha := (h.position_iff a i).mp hi
  have hb := h.position_iff b i
  have hinj {k : Nat} (hk : t.members[k]? = some a) : k = i := h.position_inj hk ha
  rw [Columns.vacated, getElem?_patched, getElem?_swapRemove (h.lt_length hi),
    List.getLast?_eq_getElem?, if_pos rfl]
  grind

/-- The vote of whoever stays is still attached to its address. -/
theorem vote?_vacated (h : t.Coherent) (hi : t.positions[a]? = some i) (hne : b ≠ a) :
    (t.vacated a i).vote? b = t.vote? b := by
  have h' := h.vacated hi
  have hlt : i < t.roster.seats.length := by
    rw [← Roster.size, h.size_roster]
    exact h.lt_length hi
  rw [h'.vote?_roster, h.vote?_roster]
  refine congrArg Except.ok (Option.ext fun w => ?_)
  rw [vote?_eq_some_iff (h'.members_roster ▸ h'.nodup),
    vote?_eq_some_iff (h.members_roster ▸ h.nodup), h.roster_vacated hi,
    (swapRemove_perm hlt).mem_iff, List.mem_eraseIdx_iff_getElem?]
  constructor
  · rintro ⟨j, -, hseat⟩
    exact List.mem_of_getElem? hseat
  · intro hseat
    obtain ⟨j, hj⟩ := List.mem_iff_getElem?.mp hseat
    refine ⟨j, ?_, hj⟩
    -- The vacated seat is that of another member.
    rintro rfl
    obtain ⟨hb, -⟩ := getElem?_roster.mp hj
    exact hne (Option.some.inj (hb.symm.trans ((h.position_iff a j).mp hi)))

end Coherent

/-! ### The columns after a sequence of changes -/

/-- After every sequence of changes, made or refused, the rows are equally long, nobody is seated
twice, the zero address is not seated, and the index tells where each member stands. So the columns
do what the list of seats does, and nothing is looked up beyond the end of a row unless a vote is to
be recorded there. A member that leaves is given its own vote, and only the last member is moved:
every other vote stays with its address. -/
theorem faithful (changes : List Change) :
    let t := after {} changes
    (t.members.length = t.votes.length ∧ t.members.Nodup ∧ Octets.zero ∉ t.members ∧
      ∀ (a : Address) (i : Nat), t.positions[a]? = some i ↔ t.members[i]? = some a) ∧
    (t.roster = Roster.after {} changes ∧
      (∀ c, (t.perform c).map (Prod.map roster id) = t.roster.perform c) ∧
      ∀ a, t.positions[a]? = t.roster.indexOf? a ∧ t.vote? a = .ok (t.roster.vote? a)) ∧
    (∀ c i, t.perform c = .error (.noSeat i) ↔ ∃ v, c = .record i v ∧ t.votes.length ≤ i) ∧
    ∀ a t' v, t.remove a = .ok (t', v) →
      t.vote? a = .ok (some v) ∧ t'.vote? a = .ok none ∧
      ∀ b, b ≠ a → t'.vote? b = t.vote? b ∧ t'.positions[b]? =
        if t.members.getLast? = some b then t.positions[a]? else t.positions[b]? := by
  intro t
  have h : t.Coherent := coherent_empty.after changes
  have hroster : t.roster = Roster.after {} changes := coherent_empty.after_roster changes
  refine ⟨⟨h.lengths, h.nodup, ?_, h.position_iff⟩,
    ⟨hroster, h.perform_roster, fun a => ⟨(h.indexOf?_roster a).symm, h.vote?_roster a⟩⟩,
    h.perform_eq_noSeat_iff, fun a t' v ht => ?_⟩
  · rw [← h.members_roster, hroster]
    exact zero_notMem_after List.not_mem_nil changes
  · obtain ⟨i, hi, hv, rfl⟩ := h.remove_eq_ok ht
    refine ⟨?_, ?_, fun b hne => ⟨h.vote?_vacated hi hne, ?_⟩⟩
    · rw [h.vote?_roster, h.vote?_roster_of_mem hi hv]
    · rw [Columns.vote?, h.position_vacated hi, if_pos rfl]
    · rw [h.position_vacated hi, if_neg hne, hi]

/-- Of three members the first one leaves, and the last one is moved to its place with the vote that
was recorded. Two changes have been refused before. -/
theorem vote_of_moved_member :
    let member (i : Nat) : Address := .ofLowByte (.ofNat (i + 1))
    let v : Vote := ⟨31, Octets.replicate 32 7⟩
    let t := after {} [.insert (member 0), .insert (member 1), .insert (member 1),
      .insert (member 2), .record 2 v, .record 3 v]
    ∃ t', t.remove (member 0) = .ok (t', Vote.blank) ∧ t.positions[member 2]? = some 2 ∧
      t'.positions[member 2]? = some 0 ∧ t'.vote? (member 2) = .ok (some v) := by
  intro member v t
  obtain ⟨-, ⟨hroster, -, hlook⟩, -, hleave⟩ := faithful [.insert (member 0), .insert (member 1),
    .insert (member 1), .insert (member 2), .record 2 v, .record 3 v]
  have h : t.Coherent := coherent_empty.after _
  have hfirst : t.positions[member 0]? = some 0 := by
    rw [(hlook _).1, hroster]
    decide +kernel
  have hthird : t.positions[member 2]? = some 2 := by
    rw [(hlook _).1, hroster]
    decide +kernel
  have hlast : t.members.getLast? = some (member 2) := by
    rw [← h.members_roster, hroster]
    decide +kernel
  have hblank : t.vote? (member 0) = .ok (some Vote.blank) := by
    rw [(hlook _).2, hroster]
    exact congrArg Except.ok (by decide +kernel)
  have hvoted : t.vote? (member 2) = .ok (some v) := by
    rw [(hlook _).2, hroster]
    exact congrArg Except.ok (by decide +kernel)
  obtain ⟨w, -, ht⟩ := h.remove_of_mem hfirst
  obtain ⟨hown, -, hothers⟩ := hleave _ _ _ ht
  obtain rfl : w = Vote.blank := Option.some.inj (Except.ok.inj (hown.symm.trans hblank))
  obtain ⟨hvote, hposition⟩ := hothers (member 2) (by decide +kernel)
  exact ⟨_, ht, hthird, by rw [hposition, if_pos hlast, hfirst], by rw [hvote, hvoted]⟩

end Columns

end Roster

end ReportQuorum
