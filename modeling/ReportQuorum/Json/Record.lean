import ReportQuorum.Binary
import ReportQuorum.Json.Context
import ReportQuorum.Json.Printer

/-!
# Records as JSON

A record is written as an object with its fields in a fixed order. It is read from an object with
its fields in any order, where further members are passed over and a repeated field is refused, or
from an array of the fields in their fixed order.

## Main definitions

* `JsonForm`: types that are written and read as JSON
* `Json.Fields`: the fields that a tree gives for a record
* `readJson?`, `writeJson`: reading and writing whole texts
-/

namespace ReportQuorum

open Json (Tree)

/-- Types that are written and read as JSON. -/
class JsonForm (α : Type) where
  /-- The tree of a value. -/
  toTree : α → Tree
  /-- The value that a tree stands for. -/
  ofTree? : Tree → Option α

export JsonForm (toTree ofTree?)

/-- A value as a JSON text over several lines. -/
def writeJson {α : Type} [JsonForm α] (x : α) : String := (toTree x).pretty

/-- The value that a JSON text stands for. -/
def readJson? {α : Type} [JsonForm α] (s : String) : Option α := (Tree.parse? s).bind ofTree?

/-- Words are number literals without sign, point and exponent. -/
instance : JsonForm Word where
  toTree w := .nat w.toNat
  ofTree?
    | .number ⟨false, n, none, none⟩ => if n < UInt64.size then some (UInt64.ofNat n) else none
    | _ => none

instance : JsonForm Bool where
  toTree := .bool
  ofTree?
    | .bool b => some b
    | _ => none

/-- Addresses and digests are strings in their written form. -/
instance {n : Nat} : JsonForm (Octets n) where
  toTree x := .text x.text
  ofTree?
    | .string (some s) => (Octets.ofHex s).toOption
    | _ => none

/-- An optional value that is missing is a null. -/
instance {α : Type} [JsonForm α] : JsonForm (Option α) where
  toTree
    | none => .null
    | some x => toTree x
  ofTree?
    | .null => some none
    | t => (ofTree? t).map some

instance {α : Type} [JsonForm α] : JsonForm (List α) where
  toTree xs := .array (xs.map toTree)
  ofTree?
    | .array ts => ts.mapM ofTree?
    | _ => none

namespace Json

/-- The fields that a tree gives for a record. -/
abbrev Fields := List (String × Tree)

namespace Fields

/-- Picks the named members of an object. A repeated one is refused, and so is any key that names no
text. -/
def ofMembers? (names : List String) : List (Text × Tree) → Option Fields
  | [] => some []
  | (k, t) :: ms => do
    let k ← k
    let fields ← ofMembers? names ms
    -- Further members are passed over, also when they are repeated.
    if !names.contains k then return fields
    else if (fields.lookup k).isSome then none
    else return (k, t) :: fields

/-- Names the items of an array in turn. The fields after the first `least` may be left out. -/
def ofItems? (names : List String) (least : Nat) (items : List Tree) : Option Fields :=
  if least ≤ items.length ∧ items.length ≤ names.length then some (names.zip items) else none

/-- The fields of a record with these names. -/
def ofTree? (names : List String) : Tree → Option Fields
  | .object ms => ofMembers? names ms
  | .array items => ofItems? names names.length items
  | _ => none

/-- The value of a field that must be there. -/
def required {α : Type} [JsonForm α] (fields : Fields) (name : String) : Option α :=
  (fields.lookup name).bind JsonForm.ofTree?

/-- The value of a field that may be missing. -/
def optional {α : Type} [JsonForm α] (fields : Fields) (name : String) : Option (Option α) :=
  match fields.lookup name with
  | none => some none
  | some t => JsonForm.ofTree? t

end Fields

end Json

end ReportQuorum
