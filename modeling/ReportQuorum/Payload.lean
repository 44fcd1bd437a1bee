import ReportQuorum.Binary
import ReportQuorum.Blake3
import ReportQuorum.Decimal
import ReportQuorum.Json.Context

/-!
# Report payloads

The payload of a report is any JSON value. A text is read into a payload so that its layout, the
order of an object's members and the spelling of strings leave no trace; of members with the same
key the last one counts. Members vote for the digest of the payload's binary form.

## Main definitions

* `Payload`: a JSON value
* `Payload.ofTree?`: the payload that a text stands for
* `Payload.bytes`: the binary form, which does not tell types apart
* `digest`: the digest of a binary form, the name of the report
-/

namespace ReportQuorum

/-- A number: a word if it is a natural number that fits, a signed word if it is a negative integer
that fits, and the bits of a 64-bit floating-point number otherwise. -/
inductive Payload.Number where
  | natural (n : Word)
  | negative (n : Int64)
  | real (bits : Word)
deriving DecidableEq, Repr

/-- A JSON value. The members of an object are ordered by their keys. -/
inductive Payload where
  | null
  | bool (b : Bool)
  | number (n : Payload.Number)
  | string (s : String)
  | array (items : List Payload)
  | object (members : List (String × Payload))

namespace Payload

open Json (Tree Numeral)

/-- The number that a literal stands for. An integer is a floating-point number if it fits no word,
and so is a zero with a minus sign. Literals beyond the range of floating point are refused. -/
def Number.ofNumeral? (n : Numeral) : Option Number :=
  let real (d : Decimal) : Option Number :=
    d.toFloat?.map fun f => .real (if n.negative then -f else f).toBits
  match n.fraction, n.exponent with
  | none, none =>
    -- A literal without point and exponent is an integer if it fits.
    if !n.negative && n.whole < UInt64.size then some (.natural (UInt64.ofNat n.whole))
    else if n.negative && 0 < n.whole && n.whole ≤ 1 <<< 63 then
      some (.negative (Int64.ofInt (-(n.whole : Int))))
    else real (.leading n.whole)
  | fraction, exponent =>
    let d := (Decimal.leading n.whole).extend (fraction.getD [])
    real { d with exponent := d.exponent + exponent.getD 0 }

/-- Puts a member at its place among ordered members, instead of one with the same key. Texts are
ordered by their characters' numbers, which is also the order of their bytes. -/
def putMember (k : String) (v : Payload) : List (String × Payload) → List (String × Payload)
  | [] => [(k, v)]
  | (k', v') :: ms =>
    if k < k' then (k, v) :: (k', v') :: ms
    else if k = k' then (k, v) :: ms
    else (k', v') :: putMember k v ms

/-- Members in order; of those with the same key the last is kept. -/
def ordered (ms : List (String × Payload)) : List (String × Payload) :=
  ms.foldl (fun acc (k, v) => putMember k v acc) []

mutual

/-- The payload that a tree stands for, however deeply it is nested. -/
def ofTree? : Tree → Option Payload
  | .null => some .null
  | .bool b => some (.bool b)
  | .number n => (Number.ofNumeral? n).map .number
  | .string s => s.map .string
  | .array items => (ofItems? items).map .array
  | .object ms => (ofMembers? ms).map fun ms => .object (ordered ms)

/-- The payloads that the items of an array stand for. -/
def ofItems? : List Tree → Option (List Payload)
  | [] => some []
  | t :: ts => do
    let v ← ofTree? t
    let vs ← ofItems? ts
    return v :: vs

/-- The members that the members of an object stand for. -/
def ofMembers? : List (Json.Text × Tree) → Option (List (String × Payload))
  | [] => some []
  | (k, t) :: ms => do
    let k ← k
    let v ← ofTree? t
    let vs ← ofMembers? ms
    return (k, v) :: vs

end

/-- How deeply the arrays and objects of a payload may be nested. -/
def depthLimit : Nat := 127

/-- The payload that a text stands for. -/
def parse? (s : String) : Option Payload := do
  let t ← Tree.parse? s
  if t.depth ≤ depthLimit then ofTree? t else none

/-- The binary form of a number: eight bytes whatever its kind. -/
def Number.bytes : Number → List UInt8
  | .natural n => n.bytes
  | .negative n => Word.bytes n.toUInt64
  | .real bits => bits.bytes

mutual

/-- The binary form of a payload. Nothing in it says what kind of value it is, and a null takes no
bytes at all. -/
def bytes : Payload → List UInt8
  | .null => []
  | .bool b => toBytes b
  | .number n => n.bytes
  | .string s => Binary.textBytes s
  | .array items => Binary.lengthBytes items ++ itemBytes items
  | .object ms => Binary.lengthBytes ms ++ memberBytes ms

/-- The binary forms of the items of an array. -/
def itemBytes : List Payload → List UInt8
  | [] => []
  | v :: vs => bytes v ++ itemBytes vs

/-- The binary forms of the members of an object: each key and then its value. -/
def memberBytes : List (String × Payload) → List UInt8
  | [] => []
  | (k, v) :: ms => Binary.textBytes k ++ bytes v ++ memberBytes ms

end

end Payload

instance : BinaryForm Payload := ⟨Payload.bytes⟩

/-- The digest of a value's binary form; of a payload, the name members vote for. -/
def digest {α : Type} [BinaryForm α] (x : α) : Digest := Blake3.hash (toBytes x)

end ReportQuorum
