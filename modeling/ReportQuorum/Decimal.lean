import ReportQuorum.Word

/-!
# Decimals in floating point

A literal that is no integer of one word is taken apart into a significand of one word and an
exponent of ten: the leading digits are kept as far as they fit, and the digits after them are
dropped. The significand is then rounded to a 64-bit floating-point number, and multiplied with a
power of ten or divided by one, which rounds again. So the outcome need not be the floating-point
number nearest to the literal; it can miss it by the last bit.

## Main definitions

* `Decimal`: a significand of one word and an exponent of ten
* `Decimal.leading`, `Decimal.extend`: what is kept of the digits before and after the point
* `Decimal.toFloat?`: the floating-point number that a decimal is turned into

## Main results

* `Decimal.leading_eq`, `Decimal.extend_eq`: no digit is dropped that fits
-/

namespace ReportQuorum

/-- The number `significand · 10 ^ exponent`. -/
structure Decimal where
  significand : Word
  exponent : Int
deriving DecidableEq, Repr

namespace Decimal

/-- The leading digits of a natural number, as many as fit a word. -/
def leading (n : Nat) : Decimal :=
  if n < UInt64.size then ⟨.ofNat n, 0⟩
  else
    let d := leading (n / 10)
    { d with exponent := d.exponent + 1 }
decreasing_by exact Nat.div_lt_self (by simp only [UInt64.size] at *; omega) (by decide)

/-- As few digits are dropped as can be. -/
theorem leading_eq (n : Nat) : ∃ dropped : Nat,
    leading n = ⟨.ofNat (n / Nat.pow 10 dropped), dropped⟩ ∧
      n / Nat.pow 10 dropped < UInt64.size ∧
      ∀ k < dropped, UInt64.size ≤ n / Nat.pow 10 k := by
  have hzero (n : Nat) : n / Nat.pow 10 0 = n := Nat.div_one n
  have hsucc (n k : Nat) : n / Nat.pow 10 (k + 1) = n / 10 / Nat.pow 10 k := by
    rw [Nat.div_div_eq_div_mul, Nat.mul_comm]
    rfl
  fun_induction leading n with
  | case1 n hfits =>
    refine ⟨0, ?_, ?_, nofun⟩
    · rw [hzero]
      rfl
    · rwa [hzero]
  | case2 n hlong d ih =>
    obtain ⟨dropped, hd, hfits, hleast⟩ := ih
    refine ⟨dropped + 1, ?_, ?_, fun k hk => ?_⟩
    · rw [hsucc, show d = _ from hd]
      rfl
    · rwa [hsucc]
    · cases k with
      | zero =>
        rw [hzero]
        exact Nat.le_of_not_lt hlong
      | succ k =>
        rw [hsucc]
        exact hleast k (Nat.lt_of_succ_lt_succ hk)

example : leading 36893488147419103235 = ⟨3689348814741910323, 1⟩ := by decide +kernel

/-- A number with further digits after its own. -/
def appendDigits (m : Nat) (ds : List Nat) : Nat := ds.foldl (fun m x => 10 * m + x) m

/-- Takes in digits after the point, up to the first one that does not fit. -/
def extend (d : Decimal) : List Nat → Decimal
  | [] => d
  | x :: xs =>
    let significand := 10 * d.significand.toNat + x
    if significand < UInt64.size then extend ⟨.ofNat significand, d.exponent - 1⟩ xs else d

/-- The digits taken in are as many of the first ones as fit. -/
theorem extend_eq (d : Decimal) (ds : List Nat) : ∃ kept ≤ ds.length,
    d.extend ds =
        ⟨.ofNat (appendDigits d.significand.toNat (ds.take kept)), d.exponent - (kept : Nat)⟩ ∧
      appendDigits d.significand.toNat (ds.take kept) < UInt64.size ∧
      (kept < ds.length → UInt64.size ≤ appendDigits d.significand.toNat (ds.take (kept + 1))) := by
  induction ds generalizing d with
  | nil =>
    exact ⟨0, Nat.le_refl _, by simp [extend, appendDigits], d.significand.toNat_lt_size, nofun⟩
  | cons x ds ih =>
    by_cases hfits : 10 * d.significand.toNat + x < UInt64.size
    · obtain ⟨kept, hle, heq, hkept, hnext⟩ :=
        ih ⟨.ofNat (10 * d.significand.toNat + x), d.exponent - 1⟩
      rw [UInt64.toNat_ofNat_of_lt' hfits] at heq hkept hnext
      refine ⟨kept + 1, Nat.succ_le_succ hle, ?_, hkept, fun hlt => hnext (by simpa using hlt)⟩
      rw [extend, if_pos hfits, heq, Int.sub_sub, Int.add_comm 1]
      rfl
    · refine ⟨0, Nat.zero_le _, ?_, d.significand.toNat_lt_size, fun _ => Nat.le_of_not_lt hfits⟩
      simp [extend, hfits, appendDigits]

/-- The greatest exponent of a power of ten that is a finite floating-point number. -/
def exponentLimit : Nat := 308

/-- The floating-point number nearest to a power of ten. -/
def powerOfTen (i : Nat) : Float := .ofScientific 1 false i

/-- A floating-point number times a power of ten, or nothing if that is too large. -/
def scale? (f : Float) (e : Int) : Option Float :=
  if e.natAbs ≤ exponentLimit then
    if e < 0 then some (f / powerOfTen e.natAbs)
    else
      let product := f * powerOfTen e.natAbs
      if product.isInf then none else some product
  else if f == 0 then some f
  else if 0 ≤ e then none
  -- No power of ten is small enough; after three rounds at most the number is zero.
  else scale? (f / powerOfTen exponentLimit) (e + exponentLimit)
termination_by e.natAbs
decreasing_by simp only [exponentLimit] at *; omega

/-- The floating-point number that a decimal is turned into, or nothing if it is too large. -/
def toFloat? (d : Decimal) : Option Float := scale? d.significand.toFloat d.exponent

-- The floating-point number nearest to `10 ^ -23` is the one before this.
example : (toFloat? ⟨1, -23⟩).map Float.toBits = some 0x3b282db34012b252 := by decide +kernel
example : (toFloat? ⟨5, -324⟩).map Float.toBits = some 1 := by decide +kernel
example : (toFloat? ⟨1, 400⟩).map Float.toBits = none := by decide +kernel

end Decimal

end ReportQuorum
