import Mathlib.Data.List.Induction
import ReportQuorum.Octets

/-!
# Which texts stand for a byte string

After its mark, if it has one, the text of a byte string is a row of digits of either case, two for
each byte. All other texts are refused for the first of three faults. Texts are rows of characters
and are read as rows of bytes; a character that is no digit has a byte that is none, so that both
views of a text agree on whether it is right, though not on where it is wrong.

## Main definitions

* `Hex.IsDigit`: the digits of either case
* `Hex.Unmarked`: what is left of a text without its mark
* `Hex.Fault`: what is wrong with a row of bytes

## Main results

* `Hex.decodePairs_of_digits`, `Hex.decodePairs_of_stranger`: what is read of a row of bytes
* `Octets.ofHex_text`, `Octets.ofHex_hex`: reading gives back what was written
* `Octets.ofHex_characterized`: which texts are read as what, and what the others are refused for
-/

namespace ReportQuorum

namespace Hex

/-! ### Texts and their faults -/

/-- A digit, of either case. -/
def IsDigit (c : Char) : Prop :=
  ('0' ≤ c ∧ c ≤ '9') ∨ ('a' ≤ c ∧ c ≤ 'f') ∨ ('A' ≤ c ∧ c ≤ 'F')

instance : DecidablePred IsDigit := fun c => by unfold IsDigit; infer_instance

/-- The character whose number is a byte. -/
def charOf (b : UInt8) : Char := Char.ofNat b.toNat

/-- What is left of a text when one mark is taken off, if there is one. -/
inductive Unmarked : String → String → Prop
  | lower (t : String) : Unmarked ("0x" ++ t) t
  | upper (t : String) : Unmarked ("0X" ++ t) t
  | bare {s : String} (hlower : ∀ t, s ≠ "0x" ++ t) (hupper : ∀ t, s ≠ "0X" ++ t) : Unmarked s s

/-- What is wrong with a row of bytes that is to be the digits of `n` bytes. A later fault is one
only where there is no earlier one. -/
inductive Fault (n : Nat) : List UInt8 → Octets.ReadError → Prop
  | odd {bs : List UInt8} (h : bs.length % 2 = 1) : Fault n bs (.digits .oddLength)
  | stranger {ds rest : List UInt8} {b : UInt8} (heven : (ds ++ b :: rest).length % 2 = 0)
      (hdigits : ∀ d ∈ ds, IsDigit (charOf d)) (hb : ¬ IsDigit (charOf b)) :
      Fault n (ds ++ b :: rest) (.digits (.invalidCharacter b ds.length))
  | length {bs : List UInt8} (heven : bs.length % 2 = 0) (hdigits : ∀ b ∈ bs, IsDigit (charOf b))
      (hlength : bs.length ≠ 2 * n) : Fault n bs .length

/-! ### Digits -/

/-- A byte has a value if it is a digit. Writing the value gives the digit in lower case. -/
theorem value?_cases (b : UInt8) :
    (IsDigit (charOf b) ∧ ∃ k < 16, value? b = some k ∧ charOf (digit k) = (charOf b).toLower) ∨
      (¬ IsDigit (charOf b) ∧ value? b = none) := by
  have key : ∀ i < 256, let b := UInt8.ofNat i
      if IsDigit (charOf b) then
        (value? b).any (fun k => decide (k < 16 ∧ charOf (digit k) = (charOf b).toLower)) = true
      else value? b = none := by
    decide +kernel
  have hb := key b.toNat b.toNat_lt
  rw [UInt8.ofNat_toNat] at hb
  by_cases hdigit : IsDigit (charOf b)
  · rw [if_pos hdigit, Option.any_eq_true] at hb
    obtain ⟨k, hk, hlower⟩ := hb
    obtain ⟨hlt, hlower⟩ := of_decide_eq_true hlower
    exact .inl ⟨hdigit, k, hlt, hk, hlower⟩
  · rw [if_neg hdigit] at hb
    exact .inr ⟨hdigit, hb⟩

theorem valueAt_of_digit {b : UInt8} (h : IsDigit (charOf b)) (i : Nat) :
    ∃ k < 16, valueAt i b = .ok k ∧ charOf (digit k) = (charOf b).toLower := by
  obtain ⟨-, k, hlt, hk, hlower⟩ | ⟨hno, -⟩ := value?_cases b
  · exact ⟨k, hlt, by rw [valueAt, hk], hlower⟩
  · exact absurd h hno

theorem valueAt_of_stranger {b : UInt8} (h : ¬ IsDigit (charOf b)) (i : Nat) :
    valueAt i b = .error (.invalidCharacter b i) := by
  obtain ⟨hdigit, -⟩ | ⟨-, hnone⟩ := value?_cases b
  · exact absurd hdigit h
  · rw [valueAt, hnone]

/-! ### Rows of bytes -/

theorem toList_encode (bs : List UInt8) : (encode bs).toList = (digits bs).map charOf :=
  String.toList_ofList

/-- Digit pairs are read, and what is read is written with the same digits in lower case. -/
theorem decodePairs_of_digits {bs : List UInt8} (heven : bs.length % 2 = 0)
    (h : ∀ b ∈ bs, IsDigit (charOf b)) (i : Nat) :
    ∃ xs, decodePairs i bs = .ok xs ∧ (encode xs).toList = bs.map fun b => (charOf b).toLower := by
  induction bs using List.twoStepInduction generalizing i with
  | nil => exact ⟨[], rfl, rfl⟩
  | singleton b => cases heven
  | cons_cons hi lo rest ih _ =>
    obtain ⟨hhi, hlo, hrest⟩ : IsDigit (charOf hi) ∧ IsDigit (charOf lo) ∧
        ∀ b ∈ rest, IsDigit (charOf b) := by simpa using h
    obtain ⟨p, hp, hvalue, hlower⟩ := valueAt_of_digit hhi i
    obtain ⟨q, hq, hvalue', hlower'⟩ := valueAt_of_digit hlo (i + 1)
    rw [List.length_cons, List.length_cons] at heven
    obtain ⟨xs, hxs, hwritten⟩ := ih (by omega) hrest (i + 2)
    refine ⟨UInt8.ofNat (16 * p + q) :: xs, ?_, ?_⟩
    · simp [decodePairs, hvalue, hvalue', hxs, bind, Except.bind, pure, Except.pure]
    · have hbyte : (UInt8.ofNat (16 * p + q)).toNat = 16 * p + q :=
        UInt8.toNat_ofNat_of_lt' (by rw [UInt8.size]; omega)
      have hhigh : (16 * p + q) / 16 = p := by omega
      have hlow : (16 * p + q) % 16 = q := by omega
      rw [toList_encode] at hwritten ⊢
      rw [digits, hbyte, hhigh, hlow]
      simp [hlower, hlower', hwritten]

/-- The first byte that is no digit is refused, wherever it stands in its pair. -/
theorem decodePairs_of_stranger {ds rest : List UInt8} {b : UInt8}
    (heven : (ds ++ b :: rest).length % 2 = 0) (hdigits : ∀ d ∈ ds, IsDigit (charOf d))
    (hb : ¬ IsDigit (charOf b)) (i : Nat) :
    decodePairs i (ds ++ b :: rest) = .error (.invalidCharacter b (i + ds.length)) := by
  induction ds using List.twoStepInduction generalizing i with
  | nil =>
    obtain _ | ⟨lo, rest⟩ := rest
    · cases heven
    · simp [decodePairs, valueAt_of_stranger hb, bind, Except.bind]
  | singleton hi =>
    obtain ⟨k, -, hvalue, -⟩ := valueAt_of_digit (hdigits hi (List.mem_singleton_self hi)) i
    simp [decodePairs, hvalue, valueAt_of_stranger hb, bind, Except.bind]
  | cons_cons hi lo ds ih _ =>
    obtain ⟨hhi, hlo, hds⟩ : IsDigit (charOf hi) ∧ IsDigit (charOf lo) ∧
        ∀ d ∈ ds, IsDigit (charOf d) := by simpa using hdigits
    obtain ⟨p, -, hvalue, -⟩ := valueAt_of_digit hhi i
    obtain ⟨q, -, hvalue', -⟩ := valueAt_of_digit hlo (i + 1)
    rw [List.cons_append, List.cons_append, List.length_cons, List.length_cons] at heven
    have hrest := ih (by omega) hds (i + 2)
    have hposition : i + (ds.length + 1 + 1) = i + 2 + ds.length := by omega
    rw [List.length_cons, List.length_cons, hposition]
    simp [decodePairs, hvalue, hvalue', hrest, bind, Except.bind]

/-- A row of bytes has a first byte that is no digit, or none. -/
theorem digits_or_stranger (bs : List UInt8) : (∀ b ∈ bs, IsDigit (charOf b)) ∨
    ∃ ds b rest, bs = ds ++ b :: rest ∧ (∀ d ∈ ds, IsDigit (charOf d)) ∧ ¬ IsDigit (charOf b) := by
  induction bs with
  | nil => exact .inl nofun
  | cons b bs ih =>
    by_cases hb : IsDigit (charOf b)
    · obtain hall | ⟨ds, c, rest, rfl, hds, hc⟩ := ih
      · exact .inl (List.forall_mem_cons.mpr ⟨hb, hall⟩)
      · exact .inr ⟨b :: ds, c, rest, rfl, List.forall_mem_cons.mpr ⟨hb, hds⟩, hc⟩
    · exact .inr ⟨[], b, bs, rfl, nofun, hb⟩

/-! ### Rows of characters -/

theorem toNat_charOf (b : UInt8) : (charOf b).toNat = b.toNat := by
  have hvalid : b.toNat.isValidChar := .inl (Nat.lt_trans b.toNat_lt (by decide))
  exact Text.toNat_ofNat hvalid

theorem toNat_le_of_isDigit {c : Char} (h : IsDigit c) : c.toNat ≤ 102 := by
  simp only [IsDigit, Char.le_def, UInt32.le_iff_toNat_le] at h
  change c.val.toNat ≤ 102
  obtain ⟨-, h⟩ | ⟨-, h⟩ | ⟨-, h⟩ := h
  · exact Nat.le_trans h (by decide)
  · exact Nat.le_trans h (by decide)
  · exact Nat.le_trans h (by decide)

/-- A character of one byte is the one with the number of the byte. -/
theorem charOf_byte {c : Char} (h : c.toNat ≤ 127) :
    String.utf8EncodeChar c = [UInt8.ofNat c.toNat] ∧ charOf (UInt8.ofNat c.toNat) = c := by
  refine ⟨if_pos h, ?_⟩
  rw [charOf, UInt8.toNat_ofNat_of_lt' (by rw [UInt8.size]; omega), Char.ofNat_toNat]

/-- A character that is no digit has a byte that is none. -/
theorem exists_stranger {c : Char} (h : ¬ IsDigit c) :
    ∃ b ∈ String.utf8EncodeChar c, ¬ IsDigit (charOf b) := by
  by_cases hone : c.toNat ≤ 127
  · obtain ⟨hbytes, hchar⟩ := charOf_byte hone
    exact ⟨_, by rw [hbytes]; exact List.mem_singleton_self _, by rwa [hchar]⟩
  · -- The first byte of a longer character is beyond all digits.
    have hlong : ∃ b ∈ String.utf8EncodeChar c, 192 ≤ b.toNat := by
      change ¬ c.val.toNat ≤ 127 at hone
      simp only [String.utf8EncodeChar, if_neg hone]
      split
      · exact ⟨_, List.mem_cons_self, by rw [UInt8.toNat_ofNat']; omega⟩
      · split
        · exact ⟨_, List.mem_cons_self, by rw [UInt8.toNat_ofNat']; omega⟩
        · exact ⟨_, List.mem_cons_self, by rw [UInt8.toNat_ofNat']; omega⟩
    obtain ⟨b, hb, hlarge⟩ := hlong
    refine ⟨b, hb, fun hdigit => ?_⟩
    have := toNat_le_of_isDigit hdigit
    rw [toNat_charOf] at this
    omega

/-- Digits are digits also byte by byte. -/
theorem forall_utf8_iff {t : String} :
    (∀ b ∈ Text.utf8 t, IsDigit (charOf b)) ↔ ∀ c ∈ t.toList, IsDigit c := by
  simp only [Text.utf8, List.mem_flatMap, forall_exists_index, and_imp]
  constructor
  · intro h c hc
    refine Decidable.byContradiction fun hno => ?_
    obtain ⟨b, hb, hstranger⟩ := exists_stranger hno
    exact hstranger (h b c hc hb)
  · intro h b c hc hb
    obtain ⟨hbytes, hchar⟩ := charOf_byte (Nat.le_trans (toNat_le_of_isDigit (h c hc)) (by decide))
    rw [hbytes, List.mem_singleton] at hb
    rw [hb, hchar]
    exact h c hc

theorem map_charOf_utf8 {t : String} (h : ∀ c ∈ t.toList, IsDigit c) :
    (Text.utf8 t).map charOf = t.toList := by
  rw [Text.utf8]
  generalize t.toList = cs at h ⊢
  induction cs with
  | nil => rfl
  | cons c cs ih =>
    obtain ⟨hc, hcs⟩ := List.forall_mem_cons.mp h
    obtain ⟨hbytes, hchar⟩ := charOf_byte (Nat.le_trans (toNat_le_of_isDigit hc) (by decide))
    rw [List.flatMap_cons, hbytes, List.singleton_append, List.map_cons, hchar, ih hcs]

theorem length_utf8 {t : String} (h : ∀ c ∈ t.toList, IsDigit c) :
    (Text.utf8 t).length = t.length := by
  rw [← List.length_map charOf, map_charOf_utf8 h, String.length_toList]

/-! ### Marks -/

/-- One mark is taken off, if there is one. -/
theorem unmarked_stripMark (s : String) : Unmarked s (stripMark s) := by
  have chars (t : String) : ("0x" ++ t).toList = '0' :: 'x' :: t.toList := String.toList_append
  have chars' (t : String) : ("0X" ++ t).toList = '0' :: 'X' :: t.toList := String.toList_append
  rw [stripMark]
  split
  next cs h =>
    have hs : s = "0x" ++ String.ofList cs := by rw [← String.toList_inj, h, chars]; simp
    rw [hs]
    exact .lower _
  next cs h =>
    have hs : s = "0X" ++ String.ofList cs := by rw [← String.toList_inj, h, chars']; simp
    rw [hs]
    exact .upper _
  next hlower hupper =>
    refine .bare (fun t hs => ?_) (fun t hs => ?_)
    · exact hlower t.toList (by rw [hs, chars])
    · exact hupper t.toList (by rw [hs, chars'])

/-- What is left of a text is determined by it. -/
theorem Unmarked.eq_stripMark {s t : String} (h : Unmarked s t) : stripMark s = t := by
  cases h with
  | lower t =>
    have hchars : ("0x" ++ t).toList = '0' :: 'x' :: t.toList := String.toList_append
    rw [stripMark, hchars]
    exact String.ofList_toList
  | upper t =>
    have hchars : ("0X" ++ t).toList = '0' :: 'X' :: t.toList := String.toList_append
    rw [stripMark, hchars]
    exact String.ofList_toList
  | bare hlower hupper =>
    obtain hrest := unmarked_stripMark s
    generalize hleft : stripMark s = u at hrest
    cases hrest with
    | lower _ => exact absurd rfl (hlower u)
    | upper _ => exact absurd rfl (hupper u)
    | bare _ _ => rfl

theorem unmarked_iff {s t : String} : Unmarked s t ↔ stripMark s = t :=
  ⟨Unmarked.eq_stripMark, fun h => h ▸ unmarked_stripMark s⟩

/-! ### Written byte strings -/

/-- The bytes of a written byte string are its digits. -/
theorem utf8_encode (bs : List UInt8) : Text.utf8 (encode bs) = digits bs := by
  have byte : ∀ n < 16, String.utf8EncodeChar (charOf (digit n)) = [digit n] := by decide
  rw [Text.utf8, toList_encode]
  induction bs with
  | nil => rfl
  | cons b bs ih =>
    have hb := b.toNat_lt
    rw [digits, List.map_cons, List.map_cons, List.flatMap_cons, List.flatMap_cons, ih,
      byte _ (by omega), byte _ (by omega)]
    rfl

theorem isDigit_of_mem_encode (bs : List UInt8) : ∀ c ∈ (encode bs).toList, IsDigit c := by
  have digits16 : ∀ n < 16, IsDigit (charOf (digit n)) := by decide
  rw [toList_encode]
  induction bs with
  | nil => exact nofun
  | cons b bs ih =>
    have hb := b.toNat_lt
    rw [digits, List.map_cons, List.map_cons, List.forall_mem_cons, List.forall_mem_cons]
    exact ⟨digits16 _ (by omega), digits16 _ (by omega), ih⟩

/-- Digits do not begin with a mark. -/
theorem stripMark_encode (bs : List UInt8) : stripMark (encode bs) = encode bs := by
  have marked {c : Char} {t u : String} (hu : u.toList = ['0', c]) (hc : ¬ IsDigit c) :
      encode bs ≠ u ++ t := by
    intro h
    refine hc (isDigit_of_mem_encode bs c ?_)
    rw [h, String.toList_append, hu]
    simp
  exact Unmarked.eq_stripMark
    (.bare (fun _ => marked rfl (by decide)) (fun _ => marked rfl (by decide)))

end Hex

namespace Octets

open Hex (IsDigit charOf stripMark Fault)

variable {n : Nat}

/-- A text is read as the byte string whose digits follow its mark. -/
theorem ofHex_of_stripMark {s : String} {x : Octets n} (h : stripMark s = x.hex) :
    ofHex s = .ok x := by
  simp only [ofHex, h, hex, Hex.utf8_encode, Hex.decode_digits, ofBytes?_bytes]

theorem ofHex_text (x : Octets n) : ofHex x.text = .ok x :=
  ofHex_of_stripMark (Hex.Unmarked.eq_stripMark (.lower x.hex))

theorem ofHex_hex (x : Octets n) : ofHex x.hex = .ok x :=
  ofHex_of_stripMark (Hex.stripMark_encode x.bytes)

/-- As many digits as there have to be are read, and what is read is written with the same digits in
lower case. -/
theorem ofHex_of_digits {s : String} (hlength : (stripMark s).length = 2 * n)
    (h : ∀ c ∈ (stripMark s).toList, IsDigit c) :
    ∃ x : Octets n, ofHex s = .ok x ∧ x.text = "0x" ++ (stripMark s).map Char.toLower := by
  have hbytes := Hex.length_utf8 h
  have heven : (Text.utf8 (stripMark s)).length % 2 = 0 := by omega
  obtain ⟨xs, hxs, hwritten⟩ :=
    Hex.decodePairs_of_digits heven (Hex.forall_utf8_iff.mpr h) 0
  have hchars : (Hex.encode xs).toList = (stripMark s).toList.map Char.toLower := by
    rw [hwritten, ← Hex.map_charOf_utf8 h, List.map_map]
    rfl
  have hn : xs.length = n := by
    have hcount := congrArg List.length hchars
    rw [Hex.toList_encode, List.length_map, Hex.length_digits, List.length_map,
      String.length_toList] at hcount
    omega
  refine ⟨⟨xs, hn⟩, ?_, ?_⟩
  · rw [ofHex, Hex.decode, if_neg (by omega), hxs]
    simp [ofBytes?, hn]
  · rw [text, hex, ← String.toList_inj, String.toList_append, String.toList_append, hchars,
      String.toList_map]

/-- A text is refused for the first fault of the bytes that follow its mark. -/
theorem ofHex_of_fault {s : String} {err : ReadError} (h : Fault n (Text.utf8 (stripMark s)) err) :
    (ofHex s : Except ReadError (Octets n)) = .error err := by
  rw [ofHex]
  generalize Text.utf8 (stripMark s) = bs at h
  cases h with
  | odd h => rw [Hex.decode, if_pos h]
  | stranger heven hdigits hb =>
    rw [Hex.decode, if_neg (by omega), Hex.decodePairs_of_stranger heven hdigits hb, Nat.zero_add]
  | length heven hdigits hlength =>
    obtain ⟨xs, hxs, hwritten⟩ := Hex.decodePairs_of_digits heven hdigits 0
    have hn : xs.length ≠ n := by
      have hcount := congrArg List.length hwritten
      rw [Hex.toList_encode, List.length_map, Hex.length_digits, List.length_map] at hcount
      omega
    rw [Hex.decode, if_neg (by omega), hxs]
    simp [ofBytes?, hn]

/-- A row of bytes is right or has a fault. -/
theorem right_or_fault (n : Nat) (bs : List UInt8) :
    (bs.length = 2 * n ∧ ∀ b ∈ bs, IsDigit (charOf b)) ∨ ∃ err, Fault n bs err := by
  obtain hodd | heven := Nat.mod_two_eq_zero_or_one bs.length |>.symm
  · exact .inr ⟨_, .odd hodd⟩
  · obtain hdigits | ⟨ds, b, rest, rfl, hdigits, hb⟩ := Hex.digits_or_stranger bs
    · by_cases hlength : bs.length = 2 * n
      · exact .inl ⟨hlength, hdigits⟩
      · exact .inr ⟨_, .length heven hdigits hlength⟩
    · exact .inr ⟨_, .stranger heven hdigits hb⟩

/-- A text is read or has a fault. -/
theorem read_or_fault (n : Nat) (s : String) :
    ((stripMark s).length = 2 * n ∧ ∀ c ∈ (stripMark s).toList, IsDigit c) ∨
      ∃ err, Fault n (Text.utf8 (stripMark s)) err := by
  obtain ⟨hlength, hdigits⟩ | hfault := right_or_fault n (Text.utf8 (stripMark s))
  · rw [Hex.forall_utf8_iff] at hdigits
    exact .inl ⟨by rw [← Hex.length_utf8 hdigits, hlength], hdigits⟩
  · exact .inr hfault

theorem exists_ofHex_iff {s : String} : (∃ x : Octets n, ofHex s = .ok x) ↔
    (stripMark s).length = 2 * n ∧ ∀ c ∈ (stripMark s).toList, IsDigit c := by
  constructor
  · rintro ⟨x, hx⟩
    obtain hright | ⟨err, hfault⟩ := read_or_fault n s
    · exact hright
    · rw [ofHex_of_fault hfault] at hx
      cases hx
  · rintro ⟨hlength, hdigits⟩
    obtain ⟨x, hx, -⟩ := ofHex_of_digits hlength hdigits
    exact ⟨x, hx⟩

theorem ofHex_eq_ok_iff {s : String} {x : Octets n} : ofHex s = .ok x ↔
    ((stripMark s).length = 2 * n ∧ ∀ c ∈ (stripMark s).toList, IsDigit c) ∧
      x.text = "0x" ++ (stripMark s).map Char.toLower := by
  constructor
  · intro hx
    obtain ⟨hlength, hdigits⟩ := exists_ofHex_iff.mp ⟨x, hx⟩
    obtain ⟨y, hy, htext⟩ := ofHex_of_digits hlength hdigits
    obtain rfl : x = y := Except.ok.inj (hx.symm.trans hy)
    exact ⟨⟨hlength, hdigits⟩, htext⟩
  · rintro ⟨⟨hlength, hdigits⟩, htext⟩
    obtain ⟨y, hy, htext'⟩ := ofHex_of_digits hlength hdigits
    -- Two byte strings that are written alike are read alike, so they are the same.
    obtain rfl : y = x := by
      have hread := ofHex_text x
      rw [htext, ← htext', ofHex_text] at hread
      exact Except.ok.inj hread
    exact hy

theorem ofHex_eq_error_iff {s : String} {err : ReadError} :
    (ofHex s : Except ReadError (Octets n)) = .error err ↔
      Fault n (Text.utf8 (stripMark s)) err := by
  refine ⟨fun herr => ?_, ofHex_of_fault⟩
  obtain hright | ⟨err', hfault⟩ := read_or_fault n s
  · obtain ⟨x, hx⟩ := exists_ofHex_iff.mpr hright
    rw [herr] at hx
    cases hx
  · rw [ofHex_of_fault hfault] at herr
    obtain rfl := Except.error.inj herr
    exact hfault

/-- A text stands for a byte string exactly if digits of either case, two for each byte, are left
when one leading `0x` or `0X` is taken off, and then the byte string is the one that is written with
the same digits in lower case. What was written, with or without the mark, is read back. Every other
text is refused: for an odd number of bytes, else for the first byte that is no digit, which is told
with its position, else for the wrong length. Addresses are the case of twenty bytes and digests the
case of thirty-two. -/
theorem ofHex_characterized (n : Nat) (s : String) :
    (∀ u, Hex.Unmarked s u ↔ stripMark s = u) ∧
      let t := stripMark s
      ((∃ x : Octets n, ofHex s = .ok x) ↔ t.length = 2 * n ∧ ∀ c ∈ t.toList, IsDigit c) ∧
      (∀ x : Octets n, ofHex s = .ok x ↔
        (t.length = 2 * n ∧ ∀ c ∈ t.toList, IsDigit c) ∧ x.text = "0x" ++ t.map Char.toLower) ∧
      (∀ err, (ofHex s : Except ReadError (Octets n)) = .error err ↔ Fault n (Text.utf8 t) err) ∧
      ∀ x : Octets n, ofHex x.text = .ok x ∧ ofHex x.hex = .ok x :=
  ⟨fun _ => Hex.unmarked_iff, exists_ofHex_iff, fun _ => ofHex_eq_ok_iff,
    fun _ => ofHex_eq_error_iff, fun x => ⟨ofHex_text x, ofHex_hex x⟩⟩

/-- Only one mark is taken off, so a second one is a character that is no digit. -/
example : (ofHex "0x0xab" : Except ReadError (Octets 2)) =
    .error (.digits (.invalidCharacter 0x78 1)) := by cbv

end Octets

end ReportQuorum
