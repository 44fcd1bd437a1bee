import ReportQuorum.Binary

/-!
# Telling binary forms apart

The binary form of a value carries no mark of where it ends. Whether two values can be told apart
when something follows them is therefore a property of their forms: of fixed-width forms it holds
because of the width, and of texts because their length comes first.

## Main results

* `Word.bytes_append_inj`: a word is known from its bytes and what follows them
* `Binary.lengthBytes_append_inj`: so is a length that fits a word
* `Text.utf8_injective`: a text is known from its bytes
* `Binary.textBytes_append_inj`: a text is known from its form and what follows it
-/

namespace ReportQuorum

/-! ### Words -/

namespace Word

/-- A number is known from its low bytes and what is left of it without them. -/
theorem eq_of_lowBytes_eq {width m n : Nat} (h : lowBytes width m = lowBytes width n)
    (hrest : m >>> (8 * width) = n >>> (8 * width)) : m = n := by
  induction width generalizing m n with
  | zero => simpa using hrest
  | succ width ih =>
    rw [lowBytes, lowBytes, List.cons.injEq] at h
    obtain ⟨hlow, hhigh⟩ := h
    have shift (k : Nat) : k >>> (8 * (width + 1)) = (k / 256) >>> (8 * width) := by
      rw [Nat.mul_succ, Nat.add_comm, Nat.shiftRight_add, Nat.shiftRight_eq_div_pow k 8]
    rw [shift, shift] at hrest
    have hquotient : m / 256 = n / 256 := ih hhigh hrest
    have hremainder : m % 256 = n % 256 := by
      rwa [← UInt8.toNat_inj, UInt8.toNat_ofNat', UInt8.toNat_ofNat'] at hlow
    rw [← Nat.div_add_mod m 256, ← Nat.div_add_mod n 256, hquotient, hremainder]

/-- A word is known from its bytes. -/
theorem bytes_injective : Function.Injective bytes := by
  intro a b h
  have nothingLeft (w : Word) : w.toNat >>> (8 * 8) = 0 := by
    rw [Nat.shiftRight_eq_div_pow]
    exact Nat.div_eq_of_lt w.toNat_lt_size
  refine UInt64.toNat_inj.mp (eq_of_lowBytes_eq h ?_)
  rw [nothingLeft, nothingLeft]

/-- A word is known from its bytes and what follows them. -/
theorem bytes_append_inj {a b : Word} {s t : List UInt8} (h : a.bytes ++ s = b.bytes ++ t) :
    a = b ∧ s = t := by
  obtain ⟨hbytes, hrest⟩ := List.append_inj h (by rw [length_bytes, length_bytes])
  exact ⟨bytes_injective hbytes, hrest⟩

end Word

/-! ### Texts -/

namespace Text

/-- The bytes of a text are those the string is stored as. -/
theorem toByteArray_utf8 (s : String) : (utf8 s).toByteArray = s.toByteArray := by
  rw [← String.utf8Encode_toList, List.utf8Encode, utf8]

/-- A text is known from its bytes. -/
theorem utf8_injective : Function.Injective utf8 := by
  intro s t h
  have key := congrArg List.toByteArray h
  rw [toByteArray_utf8, toByteArray_utf8] at key
  exact String.toByteArray_inj.mp key

end Text

namespace Binary

/-- A length that fits a word is known from its form and what follows it. -/
theorem lengthBytes_append_inj {α β : Type} {xs : List α} {ys : List β} {s t : List UInt8}
    (hx : xs.length < UInt64.size) (hy : ys.length < UInt64.size)
    (h : lengthBytes xs ++ s = lengthBytes ys ++ t) : xs.length = ys.length ∧ s = t := by
  obtain ⟨hlength, hrest⟩ := Word.bytes_append_inj h
  refine ⟨?_, hrest⟩
  have key := congrArg UInt64.toNat hlength
  rwa [UInt64.toNat_ofNat', UInt64.toNat_ofNat', Nat.mod_eq_of_lt hx, Nat.mod_eq_of_lt hy] at key

/-- A text whose bytes can be counted by a word is known from its form and what follows it. -/
theorem textBytes_append_inj {a b : String} {s t : List UInt8}
    (ha : (Text.utf8 a).length < UInt64.size) (hb : (Text.utf8 b).length < UInt64.size)
    (h : textBytes a ++ s = textBytes b ++ t) : a = b ∧ s = t := by
  rw [textBytes, textBytes, List.append_assoc, List.append_assoc] at h
  obtain ⟨hlength, hrest⟩ := lengthBytes_append_inj ha hb h
  obtain ⟨hbytes, hrest⟩ := List.append_inj hrest hlength
  exact ⟨Text.utf8_injective hbytes, hrest⟩

end Binary

end ReportQuorum
