import ReportQuorum.Word

/-!
# The quorum

A report is agreed on when as many members stand behind it as the quorum says. A quorum is at least
a strict majority; the largest word is a quorum that no committee reaches.

## Main definitions

* `Quorum.least`: the least quorum of a committee
* `Quorum.unreachable`: the quorum that disables agreement
* `Quorum.check`: the demand that a quorum is a strict majority
-/

namespace ReportQuorum.Quorum

/-- The quorum that no committee reaches. -/
def unreachable : Word := Word.last

/-- The least strict majority of a committee. -/
def least (members : Word) : Word := members / 2 + 1

theorem toNat_least (members : Word) : (least members).toNat = members.toNat / 2 + 1 := by
  have := members.toNat_lt_size
  rw [least, UInt64.toNat_add, UInt64.toNat_div]
  simp only [UInt64.reduceToNat, UInt64.size] at this ⊢
  omega

/-- A quorum is below the least strict majority. -/
structure TooSmall where
  least : Word
  received : Word
deriving DecidableEq, Repr

/-- The wording of a refusal. -/
def TooSmall.message (e : TooSmall) : String :=
  "Quorum too small: need at least " ++ e.least.decimal ++ ", got " ++ e.received.decimal

/-- Demands that a quorum is a strict majority. -/
def check (quorum members : Word) : Except TooSmall Unit :=
  if quorum < least members then .error ⟨least members, quorum⟩ else .ok ()

end ReportQuorum.Quorum
