import ReportQuorum.Json.Record

/-!
# The roster of a committee

Members are seated in a row, each with the vote it cast last. A new member takes a seat at the end;
when a member leaves, the last one moves to the vacant seat.

## Main definitions

* `Vote`: a report for a reference slot
* `Roster`: the seats of a committee
* `Roster.insert`, `Roster.remove`, `Roster.record`: the changes of a roster
* `Roster.support`: how many members stand behind a report
-/

namespace ReportQuorum

/-- A report for a reference slot. -/
structure Vote where
  refSlot : Word
  report : Digest
deriving DecidableEq

namespace Vote

/-- The vote of a member that has not voted. -/
def blank : Vote := ⟨0, Octets.zero⟩

/-- The names of the fields, in their order. -/
def fieldNames : List String := ["last_report_ref_slot", "last_report_hash"]

instance : JsonForm Vote where
  toTree v := .record [
    ("last_report_ref_slot", toTree v.refSlot),
    ("last_report_hash", toTree v.report)]
  ofTree? t := do
    let fields ← Json.Fields.ofTree? fieldNames t
    return {
      refSlot := ← fields.required "last_report_ref_slot"
      report := ← fields.required "last_report_hash" }

instance : BinaryForm Vote where
  toBytes v := toBytes v.refSlot ++ toBytes v.report

end Vote

/-- A member and the vote it cast last. -/
structure Seat where
  member : Address
  vote : Vote := Vote.blank
deriving DecidableEq

/-- The seats of a committee. -/
structure Roster where
  seats : List Seat := []
deriving DecidableEq

/-- Removes the item at a position by moving the last one there. -/
def swapRemove {α : Type} (xs : List α) (i : Nat) : List α :=
  match xs.getLast? with
  | none => []
  | some z => (xs.set i z).dropLast

namespace Roster

/-- Why a change of the roster is refused. -/
inductive Error where
  /-- The account has a seat already. -/
  | duplicateMember (member : Address)
  /-- The account has no seat. -/
  | nonMember (member : Address)
  /-- The zero address cannot take a seat. -/
  | zeroAddress
deriving DecidableEq

/-- The wording of a refusal. -/
def Error.message : Error → String
  | .duplicateMember a => "Duplicate member: " ++ a.text
  | .nonMember a => "Not a member: " ++ a.text
  | .zeroAddress => "Address cannot be zero"

/-- The members, in the order of their seats. -/
def members (r : Roster) : List Address := r.seats.map (·.member)

/-- The number of members. -/
def size (r : Roster) : Nat := r.seats.length

/-- The number of members as a word. -/
def count (r : Roster) : Word := UInt64.ofNat r.size

/-- The position of a member's seat. -/
def indexOf? (r : Roster) (a : Address) : Option Nat := r.seats.findIdx? (·.member = a)

/-- Whether an account has a seat. -/
def contains (r : Roster) (a : Address) : Bool := (r.indexOf? a).isSome

/-- The last vote of a member. -/
def vote? (r : Roster) (a : Address) : Option Vote := (r.seats.find? (·.member = a)).map (·.vote)

/-- Seats a new member at the end. -/
def insert (r : Roster) (a : Address) : Except Error Roster :=
  if r.contains a then .error (.duplicateMember a)
  else if a.isZero then .error .zeroAddress
  else .ok ⟨r.seats ++ [{ member := a }]⟩

/-- Takes a member's seat away; the last member moves to it. Also gives the vote of the member. -/
def remove (r : Roster) (a : Address) : Except Error (Roster × Vote) :=
  match r.seats.findIdx? (·.member = a), r.vote? a with
  | some i, some v => .ok (⟨swapRemove r.seats i⟩, v)
  | _, _ => .error (.nonMember a)

/-- Records the vote of a member. -/
def record (r : Roster) (a : Address) (v : Vote) : Roster :=
  ⟨r.seats.map fun s => if s.member = a then { s with vote := v } else s⟩

/-- How many members voted for a report last, for this reference slot. -/
def support (r : Roster) (v : Vote) : Word := UInt64.ofNat (r.seats.countP (·.vote = v))

end Roster

end ReportQuorum
