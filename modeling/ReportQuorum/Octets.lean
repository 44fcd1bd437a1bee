import ReportQuorum.Hex

/-!
# Addresses and digests

Accounts are named by twenty bytes and reports by thirty-two. Both are written as `0x` and the
lower-case hexadecimal digits of their bytes, and are ordered byte by byte from the left.

## Main definitions

* `Octets n`: a byte string of length `n`
* `Address`, `Digest`: the byte strings that name accounts and reports
* `Octets.text`: the written form
* `Octets.ofHex`: the value that a text stands for, or the fault in it

## Main results

* `Octets.ofBytes?_bytes`: a value is the one its bytes make up
-/

namespace ReportQuorum

/-- A byte string of length `n`. -/
structure Octets (n : Nat) where
  /-- The bytes, leftmost first. -/
  bytes : List UInt8
  length_bytes : bytes.length = n
deriving DecidableEq

namespace Octets

variable {n : Nat}

@[ext] theorem ext {a b : Octets n} (h : a.bytes = b.bytes) : a = b := by
  cases a; cases b; simp_all

/-- The value whose bytes are all `b`. -/
def replicate (n : Nat) (b : UInt8) : Octets n := ⟨List.replicate n b, List.length_replicate⟩

/-- The value whose bytes are all zero; it stands for "no account" and "no report". -/
def zero : Octets n := replicate n 0

instance : Inhabited (Octets n) := ⟨zero⟩

/-- Whether all bytes are zero. -/
def isZero (x : Octets n) : Bool := x == zero

@[simp] theorem isZero_iff {x : Octets n} : x.isZero = true ↔ x = zero := by simp [isZero]

/-- The value with these bytes, if their number is right. -/
def ofBytes? (bs : List UInt8) : Option (Octets n) :=
  if h : bs.length = n then some ⟨bs, h⟩ else none

/-- A value is the one its bytes make up. -/
@[simp] theorem ofBytes?_bytes (x : Octets n) : ofBytes? x.bytes = some x := by
  simp [ofBytes?, x.length_bytes]

/-- Values are ordered by their first differing byte. -/
instance : Ord (Octets n) := ⟨fun a b => List.compareLex compare a.bytes b.bytes⟩

/-- The hexadecimal digits of a value. -/
def hex (x : Octets n) : String := Hex.encode x.bytes

/-- The written form of a value: `0x` and its digits. -/
def text (x : Octets n) : String := "0x" ++ x.hex

/-- Why a text is not the written form of a value. -/
inductive ReadError where
  /-- What follows the mark is not a sequence of digit pairs. -/
  | digits (cause : Hex.Error)
  /-- The number of bytes is wrong. -/
  | length
deriving DecidableEq, Repr

/-- The value that a text stands for. A fault in the digits comes before a wrong length. -/
def ofHex (s : String) : Except ReadError (Octets n) :=
  match Hex.decode (Text.utf8 (Hex.stripMark s)) with
  | .error cause => .error (.digits cause)
  | .ok bs =>
    -- The length is only looked at when all digits are right.
    match ofBytes? bs with
    | some x => .ok x
    | none => .error .length

end Octets

/-- The name of an account: a member, an administrator, an engine or a processor. -/
abbrev Address := Octets 20

/-- The name of a report: the digest of its contents, which nothing here looks into. -/
abbrev Digest := Octets 32

/-- The wording of a fault in digits. -/
def Hex.Error.report (e : Hex.Error) : String := "Hex decode error: " ++ e.message

namespace Address

/-- The address whose bytes are zero but for the last one. -/
def ofLowByte (b : UInt8) : Address := ⟨List.replicate 19 0 ++ [b], by simp⟩

/-- The wording of a fault in a written address. -/
def readMessage : Octets.ReadError → String
  | .digits cause => cause.report
  | .length => "Invalid address"

/-- An address with the name of its type, for diagnostics. -/
def labelled (a : Address) : String := "Address(" ++ a.text ++ ")"

end Address

namespace Digest

/-- The wording of a fault in a written digest. -/
def readMessage : Octets.ReadError → String
  | .digits cause => cause.report
  | .length => "Invalid hash length"

/-- A digest with the name of its type, for diagnostics. -/
def labelled (d : Digest) : String := "Hash(" ++ d.text ++ ")"

end Digest

end ReportQuorum
