import ReportQuorum.Role

/-!
# Who holds which role

A table of roles is a finite set of pairs of a role and an account. Its entries are kept in order
and without repetition, so that two tables with the same pairs are equal. Holders of the default
admin role may change it.

## Main definitions

* `RoleTable`: a set of pairs of a role and an account
* `RoleTable.holds`, `RoleTable.holders`: the members of the set
* `RoleTable.check`: the demand that an account holds a role
* `RoleTable.grant`, `RoleTable.revoke`: changes on behalf of a caller
-/

namespace ReportQuorum

/-- An account is refused because it does not hold a role. -/
structure MissingRole where
  account : Address
  role : Role
deriving DecidableEq

/-- The wording of a refusal. -/
def MissingRole.message (m : MissingRole) : String :=
  "Account " ++ m.account.text ++ " is missing role " ++ m.role.title

/-- A set of pairs of a role and an account. -/
structure RoleTable where
  /-- The pairs, ordered by role and then by account. -/
  entries : List (Role × Address) := []
deriving DecidableEq

namespace RoleTable

/-- Pairs are ordered by the number of the role and then by account. -/
def compareEntries (x y : Role × Address) : Ordering :=
  (compare x.1.index y.1.index).then (compare x.2 y.2)

/-- Puts a pair at its place, unless it is there. -/
def put (x : Role × Address) : List (Role × Address) → List (Role × Address)
  | [] => [x]
  | y :: ys =>
    match compareEntries x y with
    | .lt => x :: y :: ys
    -- It is there already.
    | .eq => y :: ys
    | .gt => y :: put x ys

/-- Whether an account holds a role. -/
def holds (t : RoleTable) (role : Role) (account : Address) : Bool :=
  t.entries.contains (role, account)

/-- The accounts that hold a role, in order. -/
def holders (t : RoleTable) (role : Role) : List Address :=
  t.entries.filterMap fun (r, a) => if r = role then some a else none

/-- The table with one more pair. -/
def insert (t : RoleTable) (role : Role) (account : Address) : RoleTable :=
  ⟨put (role, account) t.entries⟩

/-- The table without a pair. -/
def erase (t : RoleTable) (role : Role) (account : Address) : RoleTable :=
  ⟨t.entries.filter (· ≠ (role, account))⟩

/-- The table in which one account holds the default admin role. -/
def ofAdmin (admin : Address) : RoleTable := ⟨[(.defaultAdmin, admin)]⟩

/-- Demands that an account holds a role. -/
def check (t : RoleTable) (role : Role) (account : Address) : Except MissingRole Unit :=
  if t.holds role account then .ok () else .error ⟨account, role⟩

/-- Grants a role on behalf of a caller. Also says whether the table has changed. -/
def grant (t : RoleTable) (caller : Address) (role : Role) (account : Address) :
    Except MissingRole (RoleTable × Bool) := do
  t.check .defaultAdmin caller
  return (t.insert role account, !t.holds role account)

/-- Revokes a role on behalf of a caller. Also says whether the table has changed. -/
def revoke (t : RoleTable) (caller : Address) (role : Role) (account : Address) :
    Except MissingRole (RoleTable × Bool) := do
  t.check .defaultAdmin caller
  return (t.erase role account, t.holds role account)

end RoleTable

end ReportQuorum
