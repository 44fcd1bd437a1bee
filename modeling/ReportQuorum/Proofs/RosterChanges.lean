import ReportQuorum.Proofs.Seats
import ReportQuorum.Proofs.Success

/-!
# Sequences of changes of a roster

Whatever sequence of changes a roster goes through, made or refused, nobody is seated twice and the
zero address is never seated. So the position of a member is the one place where it stands in the
row.

## Main definitions

* `Roster.Change`: a change as data
* `Roster.perform`: what a change answers and the roster it leaves
* `Roster.after`: the roster after a sequence of changes

## Main results

* `Roster.indexOf?_eq_some_iff`: where nobody is seated twice, positions and members determine each
  other
* `Roster.perform_eq_noSeat_iff`: which changes are for a position at which there is nobody
* `Roster.nodup_after`, `Roster.zero_notMem_after`: who is seated after a sequence of changes
-/

namespace ReportQuorum.Roster

/-- A change of a roster. -/
inductive Change where
  | insert (member : Address)
  | remove (member : Address)
  /-- The member at a position has voted. -/
  | record (position : Nat) (vote : Vote)
deriving DecidableEq

/-- What a change answers. -/
inductive Answer where
  /-- The position of the new member. -/
  | seated (position : Nat)
  /-- The last vote of the member that has left. -/
  | left (vote : Vote)
  | recorded
deriving DecidableEq

/-- Why a change is not made. -/
inductive Fault where
  | refused (cause : Error)
  /-- There is nobody at the position. -/
  | noSeat (position : Nat)
deriving DecidableEq

/-- Makes a change. -/
def perform (r : Roster) : Change → Except Fault (Roster × Answer)
  | .insert a => do
    let r' ← (r.insert a).mapError .refused
    return (r', .seated r.size)
  | .remove a => do
    let (r', v) ← (r.remove a).mapError .refused
    return (r', .left v)
  | .record i v =>
    match r.members[i]? with
    | some a => .ok (r.record a v, .recorded)
    | none => .error (.noSeat i)

/-- The roster after a change, which is the same if the change is not made. -/
def act (r : Roster) (c : Change) : Roster :=
  match r.perform c with
  | .ok (r', _) => r'
  | .error _ => r

/-- The roster after a sequence of changes. -/
def after (r : Roster) (changes : List Change) : Roster := changes.foldl act r

variable {r r' : Roster} {a : Address} {i : Nat}

theorem length_members (r : Roster) : r.members.length = r.size := List.length_map ..

/-- Where nobody is seated twice, positions and members determine each other. -/
theorem indexOf?_eq_some_iff (hr : r.members.Nodup) :
    r.indexOf? a = some i ↔ r.members[i]? = some a := by
  rw [members] at hr
  rw [indexOf?, List.findIdx?_eq_some_iff_getElem, List.getElem?_eq_some_iff]
  simp only [members, List.length_map, List.getElem_map, decide_eq_true_eq]
  constructor
  · rintro ⟨hi, hmember, -⟩
    exact ⟨hi, hmember⟩
  · rintro ⟨hi, hmember⟩
    refine ⟨hi, hmember, fun j hj hsame => Nat.ne_of_lt hj ?_⟩
    have hj' : j < (r.seats.map (·.member)).length := by rw [List.length_map]; omega
    have hi' : i < (r.seats.map (·.member)).length := by rw [List.length_map]; exact hi
    have hplaces : (r.seats.map (·.member))[j] = (r.seats.map (·.member))[i] := by
      rw [List.getElem_map, List.getElem_map, hsame, hmember]
    exact hr.getElem_inj_iff.mp hplaces

/-- Only a vote can be meant for a position at which there is nobody. -/
theorem perform_eq_noSeat_iff (r : Roster) (c : Change) (i : Nat) :
    r.perform c = .error (.noSeat i) ↔ ∃ v, c = .record i v ∧ r.size ≤ i := by
  cases c with
  | insert a =>
    cases h : r.insert a <;>
      simp [perform, h, bind, Except.bind, Except.mapError, pure, Except.pure]
  | remove a =>
    cases h : r.remove a <;>
      simp [perform, h, bind, Except.bind, Except.mapError, pure, Except.pure]
  | record j v =>
    have hsize := r.length_members
    rw [perform]
    by_cases hj : j < r.size
    · rw [List.getElem?_eq_getElem (by omega)]
      constructor
      · intro hfault
        cases hfault
      · rintro ⟨_, ⟨⟩, hi⟩
        omega
    · rw [List.getElem?_eq_none (by omega)]
      constructor
      · rintro ⟨⟩
        exact ⟨v, rfl, Nat.le_of_not_lt hj⟩
      · rintro ⟨_, ⟨⟩, -⟩
        rfl

/-! ### What every change keeps -/

theorem zero_notMem_insert (h : r.insert a = .ok r') (hr : Octets.zero ∉ r.members) :
    Octets.zero ∉ r'.members := by
  obtain ⟨-, hzero, rfl⟩ := insert_eq_ok.mp h
  simpa [members] using ⟨by simpa [members] using hr, hzero.symm⟩

theorem zero_notMem_remove {v : Vote} (h : r.remove a = .ok (r', v))
    (hr : Octets.zero ∉ r.members) : Octets.zero ∉ r'.members := by
  intro hzero
  obtain ⟨s, hs, hmember⟩ := List.mem_map.mp hzero
  exact hr (hmember ▸ List.mem_map_of_mem (mem_of_mem_remove h hs))

/-- A change keeps what joining, leaving and voting keep. -/
theorem invariant_act {P : Roster → Prop}
    (hinsert : ∀ r a r', r.insert a = .ok r' → P r → P r')
    (hremove : ∀ r a r' v, r.remove a = .ok (r', v) → P r → P r')
    (hrecord : ∀ r a v, P r → P (r.record a v)) (h : P r) (c : Change) : P (r.act c) := by
  rw [act]
  split
  next r' answer hmade =>
    cases c with
    | insert a =>
      simp only [perform, bind_eq_ok, mapError_eq_ok, pure_eq_ok, Prod.mk.injEq] at hmade
      obtain ⟨_, hmade, rfl, -⟩ := hmade
      exact hinsert r a _ hmade h
    | remove a =>
      simp only [perform, bind_eq_ok, mapError_eq_ok, pure_eq_ok, Prod.mk.injEq] at hmade
      obtain ⟨⟨_, v⟩, hmade, rfl, -⟩ := hmade
      exact hremove r a _ v hmade h
    | record i v =>
      rw [perform] at hmade
      split at hmade
      next a _ =>
        cases hmade
        exact hrecord r a v h
      next => cases hmade
  next => exact h

/-- A sequence of changes keeps what every change keeps. -/
theorem invariant_after {P : Roster → Prop} (hact : ∀ r c, P r → P (r.act c)) (h : P r)
    (changes : List Change) : P (r.after changes) := by
  induction changes generalizing r with
  | nil => exact h
  | cons c changes ih => exact ih (hact r c h)

/-- Nobody is seated twice. -/
theorem nodup_after (hr : r.members.Nodup) (changes : List Change) :
    (r.after changes).members.Nodup := by
  refine invariant_after (P := fun r => r.members.Nodup) (fun r c h => ?_) hr changes
  refine invariant_act (P := fun r => r.members.Nodup) ?_ ?_ ?_ h c
  · exact fun r a r' hmade h => nodup_insert hmade h
  · exact fun r a r' v hmade h => nodup_remove hmade h
  · exact fun r a v h => by rwa [members_record]

/-- The zero address is not seated. -/
theorem zero_notMem_after (hr : Octets.zero ∉ r.members) (changes : List Change) :
    Octets.zero ∉ (r.after changes).members := by
  refine invariant_after (P := fun r => Octets.zero ∉ r.members) (fun r c h => ?_) hr changes
  refine invariant_act (P := fun r => Octets.zero ∉ r.members) ?_ ?_ ?_ h c
  · exact fun r a r' hmade h => zero_notMem_insert hmade h
  · exact fun r a r' v hmade h => zero_notMem_remove hmade h
  · exact fun r a v h => by rwa [members_record]

end ReportQuorum.Roster
