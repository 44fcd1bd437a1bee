import ReportQuorum.RoleTable

/-!
# Tables of roles in order

The entries of a table ascend, so no pair is in it twice, and a table is known as soon as its pairs
are. Granting a role to an account that holds it therefore leaves the very same table, and so does
revoking one that is not held: a table has changed exactly if somebody has to be told.

## Main definitions

* `RoleTable.Ordered`: the entries of a table ascend

## Main results

* `RoleTable.Ordered.insert`, `RoleTable.Ordered.erase`: changes of a table keep it in order
* `RoleTable.insert_eq_self_iff`, `RoleTable.erase_eq_self_iff`: which of them change nothing
-/

namespace ReportQuorum

theorem Role.index_injective {r r' : Role} (h : r.index = r'.index) : r = r' := by
  cases r <;> cases r' <;> first | rfl | cases h

theorem compare_account (a b : Address) : compare a b = List.compareLex compare a.bytes b.bytes :=
  rfl

/-- Accounts are in a linear order, that of their bytes. -/
instance : Std.TransOrd Address where
  eq_swap := by
    intro a b
    rw [compare_account, compare_account]
    exact Std.OrientedCmp.eq_swap
  isLE_trans := by
    intro a b c
    rw [compare_account, compare_account, compare_account]
    exact Std.TransCmp.isLE_trans

instance : Std.LawfulEqOrd Address where
  eq_of_compare h := by
    rw [compare_account] at h
    exact Octets.ext (Std.LawfulEqCmp.eq_of_compare h)

namespace RoleTable

variable {x y : Role × Address} {entries : List (Role × Address)} {t : RoleTable} {role : Role}
  {account : Address}

/-- Pairs are in a linear order. -/
instance : Std.TransCmp compareEntries :=
  inferInstanceAs (Std.TransCmp (compareLex
    (compareOn fun x : Role × Address => x.1.index) (compareOn fun x : Role × Address => x.2)))

instance : Std.LawfulEqCmp compareEntries where
  eq_of_compare h := by
    obtain ⟨hrole, haccount⟩ := Ordering.then_eq_eq.mp h
    exact Prod.ext (Role.index_injective (Std.LawfulEqOrd.eq_of_compare hrole))
      (Std.LawfulEqOrd.eq_of_compare haccount)

/-! ### Putting a pair at its place -/

theorem mem_put : y ∈ put x entries ↔ y = x ∨ y ∈ entries := by
  induction entries with
  | nil => simp [put]
  | cons z entries ih =>
    rw [put]
    split
    · exact List.mem_cons
    next heq =>
      -- The pair is there already.
      obtain rfl := Std.LawfulEqCmp.eq_of_compare heq
      simp
    · rw [List.mem_cons, ih, List.mem_cons, or_left_comm]

/-- Pairs ascend, so none of them is there twice. -/
def Ascending (entries : List (Role × Address)) : Prop :=
  entries.Pairwise fun x y => compareEntries x y = .lt

theorem Ascending.put (h : Ascending entries) (x : Role × Address) :
    Ascending (put x entries) := by
  induction entries with
  | nil => exact List.pairwise_singleton _ _
  | cons y entries ih =>
    obtain ⟨hbefore, hrest⟩ := List.pairwise_cons.mp h
    rw [RoleTable.put]
    split
    next hlt =>
      refine List.pairwise_cons.mpr ⟨fun z hz => ?_, h⟩
      obtain rfl | hz := List.mem_cons.mp hz
      · exact hlt
      · exact Std.TransCmp.lt_trans hlt (hbefore z hz)
    · exact h
    next hgt =>
      refine List.pairwise_cons.mpr ⟨fun z hz => ?_, ih hrest⟩
      obtain rfl | hz := mem_put.mp hz
      · exact Std.OrientedCmp.gt_iff_lt.mp hgt
      · exact hbefore z hz

/-- A pair that is there already stays where it is. -/
theorem Ascending.put_of_mem (h : Ascending entries) (hx : x ∈ entries) :
    RoleTable.put x entries = entries := by
  induction entries with
  | nil => cases hx
  | cons y entries ih =>
    obtain ⟨hbefore, hrest⟩ := List.pairwise_cons.mp h
    rw [RoleTable.put]
    split
    next hlt =>
      -- A pair before the first one is not in the list.
      exfalso
      obtain rfl | hx := List.mem_cons.mp hx
      · cases Std.ReflCmp.compare_self.symm.trans hlt
      · cases (Std.OrientedCmp.gt_iff_lt.mpr (hbefore x hx)).symm.trans hlt
    · rfl
    next hgt =>
      obtain rfl | hx := List.mem_cons.mp hx
      · cases Std.ReflCmp.compare_self.symm.trans hgt
      · rw [ih hrest hx]

/-! ### Tables -/

/-- The entries of a table ascend. -/
def Ordered (t : RoleTable) : Prop := Ascending t.entries

theorem ordered_ofAdmin (admin : Address) : (ofAdmin admin).Ordered := List.pairwise_singleton _ _

theorem Ordered.insert (h : t.Ordered) (role : Role) (account : Address) :
    (t.insert role account).Ordered :=
  Ascending.put h _

theorem Ordered.erase (h : t.Ordered) (role : Role) (account : Address) :
    (t.erase role account).Ordered :=
  h.sublist List.filter_sublist

theorem holds_iff : t.holds role account = true ↔ (role, account) ∈ t.entries :=
  List.contains_iff_mem

/-- Granting a role leaves a table as it is exactly if the account holds the role. -/
theorem insert_eq_self_iff (h : t.Ordered) :
    t.insert role account = t ↔ t.holds role account = true := by
  rw [holds_iff]
  constructor
  · intro hsame
    rw [← hsame]
    exact mem_put.mpr (.inl rfl)
  · intro hmem
    rw [insert, Ascending.put_of_mem h hmem]

/-- Revoking a role leaves a table as it is exactly if the account does not hold the role. -/
theorem erase_eq_self_iff : t.erase role account = t ↔ t.holds role account = false := by
  rw [← Bool.not_eq_true, holds_iff]
  constructor
  · intro hsame hmem
    rw [← hsame] at hmem
    simp [erase] at hmem
  · intro hmem
    have hkept : t.entries.filter (· ≠ (role, account)) = t.entries :=
      List.filter_eq_self.mpr fun x hx => decide_eq_true fun heq => hmem (heq ▸ hx)
    rw [erase, hkept]

end RoleTable

end ReportQuorum
