/-!
# Words

Slots, epochs, seconds and counts are unsigned 64-bit words. Conversions between them saturate:
a result that does not fit is the nearest word, never a wrapped one.

## Main definitions

* `Word`: an unsigned 64-bit word
* `Word.addSat`, `Word.subSat`, `Word.mulSat`: saturating arithmetic
* `Word.bytes`: the eight bytes of a word, least significant first

## Main results

* `Word.toNat_addSat`, `Word.toNat_subSat`, `Word.toNat_mulSat`: saturating arithmetic is
  arithmetic on natural numbers, cut off at the largest word
-/

namespace ReportQuorum

/-- An unsigned 64-bit word. -/
abbrev Word := UInt64

namespace Word

/-- The largest word. -/
def last : Word := 0xffffffffffffffff

/-- The word nearest to a natural number. -/
def clamp (n : Nat) : Word := UInt64.ofNat (min n (UInt64.size - 1))

@[simp] theorem toNat_last : last.toNat = UInt64.size - 1 := rfl

theorem le_last (w : Word) : w ≤ last := by
  rw [UInt64.le_iff_toNat_le, toNat_last]
  exact Nat.le_sub_one_of_lt w.toNat_lt_size

theorem toNat_clamp (n : Nat) : (clamp n).toNat = min n (UInt64.size - 1) := by
  simp only [clamp, UInt64.toNat_ofNat', UInt64.size]
  omega

/-- The sum, or the largest word if the sum does not fit. -/
def addSat (a b : Word) : Word := clamp (a.toNat + b.toNat)

/-- The difference, or zero if it would be negative. -/
def subSat (a b : Word) : Word := clamp (a.toNat - b.toNat)

/-- The product, or the largest word if the product does not fit. -/
def mulSat (a b : Word) : Word := clamp (a.toNat * b.toNat)

theorem toNat_addSat (a b : Word) : (a.addSat b).toNat = min (a.toNat + b.toNat) (UInt64.size - 1) :=
  toNat_clamp _

theorem toNat_subSat (a b : Word) : (a.subSat b).toNat = a.toNat - b.toNat := by
  have := a.toNat_lt
  rw [subSat, toNat_clamp, UInt64.size]
  omega

theorem toNat_mulSat (a b : Word) : (a.mulSat b).toNat = min (a.toNat * b.toNat) (UInt64.size - 1) :=
  toNat_clamp _

/-- The `width` low bytes of a number, least significant first. -/
def lowBytes : Nat → Nat → List UInt8
  | 0, _ => []
  | width + 1, n => UInt8.ofNat n :: lowBytes width (n / 256)

@[simp] theorem length_lowBytes (width n : Nat) : (lowBytes width n).length = width := by
  induction width generalizing n with
  | zero => rfl
  | succ width ih => simp [lowBytes, ih]

/-- The eight bytes of a word, least significant first. -/
def bytes (w : Word) : List UInt8 := lowBytes 8 w.toNat

@[simp] theorem length_bytes (w : Word) : w.bytes.length = 8 := length_lowBytes 8 _

/-- The decimal digits of a word. -/
def decimal (w : Word) : String := w.toNat.repr

end Word

end ReportQuorum
