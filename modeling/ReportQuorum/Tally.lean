import ReportQuorum.Roster

/-!
# Counting votes

For the reference slot voted on last, the reports that were named are kept in the order in which
they first came up. How many members stand behind each is read off the roster, so a member that
changes its vote or leaves stops counting at once. The tally also knows which report was handed on
as agreed.

## Main definitions

* `Variant`: a report and how many members stand behind it
* `Tally`: the reports named for a reference slot, and the one agreed on
* `Tally.winner`: the first report that reaches a quorum
-/

namespace ReportQuorum

/-- A report and how many members stand behind it. -/
structure Variant where
  report : Digest
  support : Word
deriving DecidableEq

namespace Variant

/-- The names of the fields, in their order. -/
def fieldNames : List String := ["hash", "support"]

instance : JsonForm Variant where
  toTree v := .record [("hash", toTree v.report), ("support", toTree v.support)]
  ofTree? t := do
    let fields ← Json.Fields.ofTree? fieldNames t
    return { report := ← fields.required "hash", support := ← fields.required "support" }

instance : BinaryForm Variant where
  toBytes v := toBytes v.report ++ toBytes v.support

end Variant

/-- The reports named for a reference slot, and the one agreed on. -/
structure Tally where
  /-- The reference slot of the last vote. -/
  refSlot : Word := 0
  /-- The reports named for it, first come first. -/
  reports : List Digest := []
  /-- The report that was last handed on as agreed, with its reference slot. -/
  agreed : Option Vote := none
deriving DecidableEq

namespace Tally

/-- Takes note of a vote. The first vote for another reference slot clears the list. -/
def record (t : Tally) (v : Vote) : Tally :=
  -- Going back to an earlier slot clears the list as well.
  let reports := if t.refSlot = v.refSlot then t.reports else []
  { t with
    refSlot := v.refSlot
    reports := if v.report ∈ reports then reports else reports ++ [v.report] }

/-- The reports named for a reference slot, with the members behind each. -/
def variants (t : Tally) (refSlot : Word) (r : Roster) : List Variant :=
  if t.refSlot = refSlot then t.reports.map fun d => ⟨d, r.support ⟨refSlot, d⟩⟩ else []

/-- The first report behind which there are members, and at least as many as the quorum. -/
def winner (t : Tally) (refSlot quorum : Word) (r : Roster) : Option Variant :=
  (t.variants refSlot r).find? fun v => 0 < v.support && quorum ≤ v.support

/-- The report handed on as agreed for a reference slot. -/
def agreedFor (t : Tally) (refSlot : Word) : Option Digest :=
  t.agreed.bind fun v => if v.refSlot = refSlot then some v.report else none

/-- Takes note of what was handed on as agreed for a reference slot, or that nothing is. -/
def setAgreed (t : Tally) (refSlot : Word) (report : Option Digest) : Tally :=
  { t with agreed := report.map (⟨refSlot, ·⟩) }

end Tally

end ReportQuorum
