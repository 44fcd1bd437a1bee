import ReportQuorum.Word
import ReportQuorum.Octets

/-!
# The binary form of values

Reports and records have one binary form, whose digest identifies them. Words take eight bytes,
least significant first; flags take one; texts and lists begin with their length as a word; an
optional value begins with a byte that says whether it is there; fields follow each other with
nothing in between.

## Main definitions

* `BinaryForm`: types with a binary form
* `toBytes`: the binary form of a value
-/

namespace ReportQuorum

/-- Types whose values have a binary form. -/
class BinaryForm (α : Type) where
  /-- The binary form of a value. -/
  toBytes : α → List UInt8

export BinaryForm (toBytes)

namespace Binary

/-- The length of a list, as it stands in front of the items. -/
def lengthBytes {α : Type} (xs : List α) : List UInt8 := Word.bytes (UInt64.ofNat xs.length)

/-- A text: the number of its bytes, then the bytes. -/
def textBytes (s : String) : List UInt8 :=
  let bs := Text.utf8 s
  lengthBytes bs ++ bs

end Binary

instance : BinaryForm Word := ⟨Word.bytes⟩

instance : BinaryForm Bool := ⟨fun b => [if b then 1 else 0]⟩

instance : BinaryForm String := ⟨Binary.textBytes⟩

instance {n : Nat} : BinaryForm (Octets n) := ⟨Octets.bytes⟩

instance {α : Type} [BinaryForm α] : BinaryForm (Option α) where
  toBytes
    | none => [0]
    | some x => 1 :: toBytes x

instance {α : Type} [BinaryForm α] : BinaryForm (List α) :=
  ⟨fun xs => Binary.lengthBytes xs ++ xs.flatMap toBytes⟩

end ReportQuorum
