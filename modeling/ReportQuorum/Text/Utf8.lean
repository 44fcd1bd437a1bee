/-!
# The bytes of a text

A text is written in bytes as the UTF-8 form of its characters, one after the other.

## Main definitions

* `Text.utf8`: the UTF-8 bytes of a text

## Main results

* `Text.toNat_ofNat`: the number of a character that was given by its number
-/

namespace ReportQuorum.Text

/-- The UTF-8 bytes of a text. -/
def utf8 (s : String) : List UInt8 := s.toList.flatMap String.utf8EncodeChar

theorem toNat_ofNat {n : Nat} (h : n.isValidChar) : (Char.ofNat n).toNat = n := by
  rw [Char.ofNat, dif_pos h]
  rfl

end ReportQuorum.Text
