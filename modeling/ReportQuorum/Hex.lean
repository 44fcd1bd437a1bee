import ReportQuorum.Text.Utf8
import ReportQuorum.Text.CharLiteral

/-!
# Hexadecimal texts

Byte strings are written with two lower-case digits a byte and read with digits of either case,
after an optional `0x` or `0X`. A text is refused for the first of these faults: an odd number of
bytes, then the first byte that is no digit.

## Main definitions

* `Hex.encode`: the digits of a byte string
* `Hex.decode`: the byte string that a sequence of digits stands for, or the fault in it
* `Hex.stripMark`: a text without its leading `0x` or `0X`

## Main results

* `Hex.decode_digits`: reading gives back what was written
-/

namespace ReportQuorum.Hex

/-- Why a sequence of bytes is not a sequence of digit pairs. -/
inductive Error where
  /-- The number of digits is odd. -/
  | oddLength
  /-- The byte at this position is no digit. -/
  | invalidCharacter (byte : UInt8) (position : Nat)
deriving DecidableEq, Repr

/-- The wording of a fault. -/
def Error.message : Error → String
  | .oddLength => "Odd number of digits"
  | .invalidCharacter b i => "Invalid character " ++ Text.charLiteral b ++ " at position " ++ i.repr

/-- The lower-case digit of a number below sixteen. -/
def digit (n : Nat) : UInt8 := UInt8.ofNat (if n < 10 then 0x30 + n else 0x57 + n)

/-- The number that a digit of either case stands for. -/
def value? (b : UInt8) : Option Nat :=
  if 0x30 ≤ b.toNat ∧ b.toNat ≤ 0x39 then some (b.toNat - 0x30)
  else if 0x41 ≤ b.toNat ∧ b.toNat ≤ 0x46 then some (b.toNat - 0x37)
  else if 0x61 ≤ b.toNat ∧ b.toNat ≤ 0x66 then some (b.toNat - 0x57)
  else none

/-- The digits of a byte string, two a byte. -/
def digits : List UInt8 → List UInt8
  | [] => []
  | b :: bs => digit (b.toNat / 16) :: digit (b.toNat % 16) :: digits bs

/-- The written form of a byte string. -/
def encode (bs : List UInt8) : String :=
  String.ofList ((digits bs).map fun b => Char.ofNat b.toNat)

/-- The number of the digit that stands at a position. -/
def valueAt (position : Nat) (b : UInt8) : Except Error Nat :=
  match value? b with
  | some n => .ok n
  | none => .error (.invalidCharacter b position)

/-- Reads digit pairs from left to right; the first of them stands at `position`. -/
def decodePairs : (position : Nat) → List UInt8 → Except Error (List UInt8)
  | i, hi :: lo :: rest => do
    let h ← valueAt i hi
    let l ← valueAt (i + 1) lo
    let bs ← decodePairs (i + 2) rest
    return UInt8.ofNat (16 * h + l) :: bs
  -- A digit without its partner is refused beforehand.
  | _, _ => .ok []

/-- Reads a sequence of digits. -/
def decode (bs : List UInt8) : Except Error (List UInt8) :=
  if bs.length % 2 = 1 then .error .oddLength else decodePairs 0 bs

/-- A text without its leading `0x` or `0X`; only one such mark is taken off. -/
def stripMark (s : String) : String :=
  match s.toList with
  | '0' :: 'x' :: cs => String.ofList cs
  | '0' :: 'X' :: cs => String.ofList cs
  | _ => s

private theorem value?_digit_fin : ∀ n : Fin 16, value? (digit n) = some n.val := by decide

theorem value?_digit {n : Nat} (h : n < 16) : value? (digit n) = some n := value?_digit_fin ⟨n, h⟩

@[simp] theorem length_digits (bs : List UInt8) : (digits bs).length = 2 * bs.length := by
  induction bs with
  | nil => rfl
  | cons b bs ih => simp [digits, ih]; omega

theorem decodePairs_digits (i : Nat) (bs : List UInt8) : decodePairs i (digits bs) = .ok bs := by
  induction bs generalizing i with
  | nil => rfl
  | cons b bs ih =>
    have hb := b.toNat_lt
    have whole : UInt8.ofNat (16 * (b.toNat / 16) + b.toNat % 16) = b := by
      rw [show 16 * (b.toNat / 16) + b.toNat % 16 = b.toNat by omega, UInt8.ofNat_toNat]
    simp only [digits, decodePairs, valueAt, value?_digit (show b.toNat / 16 < 16 by omega),
      value?_digit (show b.toNat % 16 < 16 by omega), ih]
    simp [bind, Except.bind, pure, Except.pure, whole]

/-- Reading gives back what was written. -/
theorem decode_digits (bs : List UInt8) : decode (digits bs) = .ok bs := by
  rw [decode, length_digits, if_neg (by omega), decodePairs_digits]

end ReportQuorum.Hex
