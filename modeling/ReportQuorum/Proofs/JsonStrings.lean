import Mathlib.Data.Nat.Digits.Defs
import ReportQuorum.Json.Token
import ReportQuorum.Text.Utf8

/-!
# How strings are written

A character of a string may be written for itself, as a short escape, by its number or as a
surrogate pair. Here these ways are listed without regard to how a text is read, and exactly what is
written in one of them, up to the closing quote, is shown to be read.

## Main definitions

* `Json.Token.Piece.Written`: the ways to write an element of a string
* `Json.Token.CharsWritten`: the ways to write the characters of a string

## Main results

* `Json.Token.pieces_of_charsWritten`: characters are read as they are written
* `Json.Token.charsWritten_of_pieces`: characters are written as they are read
-/

namespace ReportQuorum.Json.Token

/-! ### Ways of writing -/

/-- A hexadecimal digit, of either case, and its value. -/
def HexDigit (d : Nat) (c : Char) : Prop :=
  d < 16 ∧ (c = Nat.digitChar d ∨ c = (Nat.digitChar d).toUpper)

/-- The letters of short escapes and the characters that these stand for. -/
def shortEscapes : List (Char × Char) :=
  [('"', '"'), ('\\', '\\'), ('/', '/'), ('b', '\x08'), ('f', '\x0c'), ('n', '\n'), ('r', '\r'),
    ('t', '\t')]

/-- The ways to write an element of a string. -/
inductive Piece.Written : Piece → List Char → Prop
  /-- Control characters and the two characters that strings need cannot stand for themselves. -/
  | plain {c : Char} (hcontrol : 0x20 ≤ c.toNat) (hquote : c ≠ '"') (hescape : c ≠ '\\') :
    Written (.char c) [c]
  | short {e c : Char} (h : (e, c) ∈ shortEscapes) : Written (.char c) ['\\', e]
  | unit {a b c d : Nat} {p q r s : Char} (ha : HexDigit a p) (hb : HexDigit b q)
    (hc : HexDigit c r) (hd : HexDigit d s) :
    Written (.unit (4096 * a + 256 * b + 16 * c + d)) ['\\', 'u', p, q, r, s]

/-- The ways to write a character in a string. -/
inductive CharWritten (c : Char) : List Char → Prop
  /-- For itself or as a short escape. -/
  | direct {w : List Char} (h : Piece.Written (.char c) w) : CharWritten c w
  /-- By its number. -/
  | unit {w : List Char} (h : Piece.Written (.unit c.toNat) w) : CharWritten c w
  /-- As a surrogate pair. -/
  | pair {high low : Nat} {v w : List Char} (hv : Piece.Written (.unit high) v)
    (hw : Piece.Written (.unit low) w) (hhigh : 0xd800 ≤ high ∧ high < 0xdc00)
    (hlow : 0xdc00 ≤ low ∧ low < 0xe000)
    (hc : c.toNat = 0x10000 + 1024 * (high - 0xd800) + (low - 0xdc00)) : CharWritten c (v ++ w)

/-- The ways to write the characters of a string. -/
inductive CharsWritten : List Char → List Char → Prop
  | nil : CharsWritten [] []
  | cons {c : Char} {cs v w : List Char} (hc : CharWritten c v) (hcs : CharsWritten cs w) :
    CharsWritten (c :: cs) (v ++ w)

/-! ### Elements -/

theorem shortEscape?_eq_some {e c : Char} : shortEscape? e = some c ↔ (e, c) ∈ shortEscapes := by
  unfold shortEscape? shortEscapes
  split <;> simp_all [eq_comm]

theorem hexValue?_of_hexDigit {d : Nat} {c : Char} (h : HexDigit d c) : hexValue? c = some d := by
  have key : ∀ d < 16, hexValue? (Nat.digitChar d) = some d ∧
      hexValue? (Nat.digitChar d).toUpper = some d := by decide
  obtain ⟨hd, rfl | rfl⟩ := h
  · exact (key d hd).1
  · exact (key d hd).2

theorem hexDigit_of_hexValue? {d : Nat} {c : Char} (h : hexValue? c = some d) : HexDigit d c := by
  have decimal : ∀ n, 48 ≤ n → n ≤ 57 → HexDigit (n - 48) (Char.ofNat n) := by
    unfold HexDigit; decide
  have lower : ∀ n, 97 ≤ n → n ≤ 102 → HexDigit (n - 87) (Char.ofNat n) := by
    unfold HexDigit; decide
  have upper : ∀ n, 65 ≤ n → n ≤ 70 → HexDigit (n - 55) (Char.ofNat n) := by
    unfold HexDigit; decide
  -- Each range of characters is small enough to be gone through.
  rw [← Char.ofNat_toNat c]
  unfold hexValue? at h
  split_ifs at h with hdecimal hlower hupper <;> obtain rfl := Option.some.inj h
  · exact decimal _ hdecimal.1 hdecimal.2
  · exact lower _ hlower.1 hlower.2
  · exact upper _ hupper.1 hupper.2

theorem unit?_eq_some {p q r s : Char} {n : Nat} :
    unit? p q r s = some n ↔ Piece.Written (.unit n) ['\\', 'u', p, q, r, s] := by
  constructor
  · intro h
    simp only [unit?, bind, Option.bind_eq_some_iff, pure, Option.some.injEq] at h
    obtain ⟨a, ha, b, hb, c, hc, d, hd, rfl⟩ := h
    exact .unit (hexDigit_of_hexValue? ha) (hexDigit_of_hexValue? hb) (hexDigit_of_hexValue? hc)
      (hexDigit_of_hexValue? hd)
  · intro h
    cases h with
    | unit ha hb hc hd =>
      simp [unit?, hexValue?_of_hexDigit ha, hexValue?_of_hexDigit hb, hexValue?_of_hexDigit hc,
        hexValue?_of_hexDigit hd]

/-- An element is read as it is written, and the others after it. -/
theorem pieces_written {p : Piece} {ps : List Piece} {w cs rest : List Char} (h : p.Written w)
    (hcs : pieces cs = some (ps, rest)) : pieces (w ++ cs) = some (p :: ps, rest) := by
  cases h with
  | @plain c hcontrol hquote hescape =>
    have hplain : ¬ (c.toNat < 0x20 ∨ c = '\\') := not_or.mpr ⟨Nat.not_lt.mpr hcontrol, hescape⟩
    rw [List.singleton_append, pieces, if_neg hplain, hcs]
    · rfl
    all_goals simp_all
  | @short e c h =>
    -- No short escape is taken for the beginning of a number.
    have hletter : e ≠ 'u' := by rintro rfl; simp [shortEscapes] at h
    simp only [List.cons_append, List.nil_append]
    rw [pieces, shortEscape?_eq_some.mpr h, hcs]
    · rfl
    · simp_all
  | unit ha hb hc hd =>
    simp only [List.cons_append, List.nil_append]
    rw [pieces, unit?_eq_some.mpr (.unit ha hb hc hd), hcs]
    rfl

/-- What is read as an element is written as one, and the others are read after it. -/
theorem written_of_pieces {p : Piece} {ps : List Piece} {cs rest : List Char}
    (h : pieces cs = some (p :: ps, rest)) :
    ∃ w cs', cs = w ++ cs' ∧ p.Written w ∧ pieces cs' = some (ps, rest) := by
  unfold pieces at h
  split at h
  · cases h
  · cases h
  · next p q r s cs' =>
    simp only [bind, Option.bind_eq_some_iff, pure, Option.some.injEq, Prod.exists] at h
    obtain ⟨n, hn, ps', rest', hcs, he⟩ := h
    cases he
    exact ⟨_, cs', rfl, unit?_eq_some.mp hn, hcs⟩
  · next e cs' _ =>
    simp only [bind, Option.bind_eq_some_iff, pure, Option.some.injEq, Prod.exists] at h
    obtain ⟨c, hc, ps', rest', hcs, he⟩ := h
    cases he
    exact ⟨_, cs', rfl, .short (shortEscape?_eq_some.mp hc), hcs⟩
  · next c cs' hquote _ _ =>
    split_ifs at h with hspecial
    obtain ⟨hcontrol, hescape⟩ := not_or.mp hspecial
    simp only [bind, Option.bind_eq_some_iff, pure, Option.some.injEq, Prod.exists] at h
    obtain ⟨ps', rest', hcs, he⟩ := h
    cases he
    exact ⟨[c], cs', rfl, .plain (Nat.not_lt.mp hcontrol) hquote hescape, hcs⟩

theorem eq_of_pieces_nil {cs rest : List Char} (h : pieces cs = some ([], rest)) :
    cs = '"' :: rest := by
  unfold pieces at h
  split at h
  · cases h
  · cases h; rfl
  all_goals simp [bind, Option.bind_eq_some_iff] at h

/-! ### Characters -/

/-- The number of a character is no half of a surrogate pair. -/
theorem not_half_toNat (c : Char) : isHighHalf c.toNat = false ∧ isLowHalf c.toNat = false := by
  have hvalid : c.toNat < 0xd800 ∨ 0xdfff < c.toNat ∧ c.toNat < 0x110000 := c.valid
  constructor <;> simp only [isHighHalf, isLowHalf, Bool.and_eq_false_imp, decide_eq_true_eq,
    decide_eq_false_iff_not] <;> omega

theorem characters?_unit (c : Char) (ps : List Piece) :
    characters? (.unit c.toNat :: ps) = (characters? ps).map (c :: ·) := by
  obtain ⟨hhigh, hlow⟩ := not_half_toNat c
  -- Another number after this one might be the second half of a pair.
  cases ps with
  | nil => simp [characters?, hhigh, hlow]
  | cons p ps => cases p <;> simp [characters?, hhigh, hlow]

theorem characters?_pair {c : Char} {high low : Nat} (hhigh : 0xd800 ≤ high ∧ high < 0xdc00)
    (hlow : 0xdc00 ≤ low ∧ low < 0xe000)
    (hc : c.toNat = 0x10000 + 1024 * (high - 0xd800) + (low - 0xdc00)) (ps : List Piece) :
    characters? (.unit high :: .unit low :: ps) = (characters? ps).map (c :: ·) := by
  have hh : isHighHalf high = true := by simp [isHighHalf, hhigh]
  have hl : isLowHalf low = true := by simp [isLowHalf, hlow]
  rw [characters?, if_pos hh, if_pos hl, ← hc, Char.ofNat_toNat]

/-- Characters are read as they are written, up to the closing quote. -/
theorem pieces_of_charsWritten {cs w : List Char} (h : CharsWritten cs w) (rest : List Char) :
    ∃ ps, pieces (w ++ '"' :: rest) = some (ps, rest) ∧ characters? ps = some cs := by
  induction h with
  | nil => exact ⟨[], by rw [List.nil_append, pieces], rfl⟩
  | @cons c cs v w hc _ ih =>
    obtain ⟨ps, hps, hcs⟩ := ih
    rw [List.append_assoc]
    cases hc with
    | direct h => exact ⟨_, pieces_written h hps, by simp [characters?, hcs]⟩
    | unit h => exact ⟨_, pieces_written h hps, by simp [characters?_unit, hcs]⟩
    | pair hv hw hhigh hlow hc =>
      rw [List.append_assoc]
      exact ⟨_, pieces_written hv (pieces_written hw hps),
        by simp [characters?_pair hhigh hlow hc, hcs]⟩

theorem unit_lt {n : Nat} {w : List Char} (h : Piece.Written (.unit n) w) : n < 0x10000 := by
  cases h with
  | unit ha hb hc hd => have := ha.1; have := hb.1; have := hc.1; have := hd.1; omega

/-- The character with the number of an element, if that is no half of a surrogate pair. -/
theorem charWritten_unit {n : Nat} {w : List Char} (h : Piece.Written (.unit n) w)
    (hhigh : ¬ isHighHalf n = true) (hlow : ¬ isLowHalf n = true) :
    CharWritten (Char.ofNat n) w := by
  have hn := unit_lt h
  have hvalid : n.isValidChar := by
    simp only [isHighHalf, isLowHalf, Bool.and_eq_true, decide_eq_true_eq] at hhigh hlow
    simp only [Nat.isValidChar]
    omega
  refine .unit ?_
  rwa [Text.toNat_ofNat hvalid]

theorem charWritten_pair {high low : Nat} {v w : List Char} (hv : Piece.Written (.unit high) v)
    (hw : Piece.Written (.unit low) w) (hhigh : isHighHalf high = true)
    (hlow : isLowHalf low = true) :
    CharWritten (Char.ofNat (0x10000 + 1024 * (high - 0xd800) + (low - 0xdc00))) (v ++ w) := by
  simp only [isHighHalf, isLowHalf, Bool.and_eq_true, decide_eq_true_eq] at hhigh hlow
  refine .pair hv hw hhigh hlow ?_
  exact Text.toNat_ofNat (by simp only [Nat.isValidChar]; omega)

theorem CharWritten.cons {c : Char} {cs v ws rest : List Char} (hc : CharWritten c v)
    (h : ∃ w, ws = w ++ '"' :: rest ∧ CharsWritten cs w) :
    ∃ w, v ++ ws = w ++ '"' :: rest ∧ CharsWritten (c :: cs) w := by
  obtain ⟨w, rfl, hw⟩ := h
  exact ⟨v ++ w, (List.append_assoc ..).symm, .cons hc hw⟩

/-- Characters are written as they are read, up to the closing quote. -/
theorem charsWritten_of_pieces {ps : List Piece} {cs ws rest : List Char}
    (hcs : characters? ps = some cs) (hps : pieces ws = some (ps, rest)) :
    ∃ w, ws = w ++ '"' :: rest ∧ CharsWritten cs w := by
  fun_induction characters? ps generalizing cs ws with
  | case1 =>
    obtain rfl := Option.some.inj hcs
    exact ⟨[], eq_of_pieces_nil hps, .nil⟩
  | case2 c ps ih =>
    obtain ⟨cs, htail, rfl⟩ := Option.map_eq_some_iff.mp hcs
    obtain ⟨v, ws, rfl, hv, hps⟩ := written_of_pieces hps
    exact (CharWritten.direct hv).cons (ih htail hps)
  | case3 high low ps hhigh hlow ih =>
    obtain ⟨cs, htail, rfl⟩ := Option.map_eq_some_iff.mp hcs
    obtain ⟨u, ws, rfl, hu, hps⟩ := written_of_pieces hps
    obtain ⟨v, ws, rfl, hv, hps⟩ := written_of_pieces hps
    rw [← List.append_assoc]
    exact (charWritten_pair hu hv hhigh hlow).cons (ih htail hps)
  | case4 => cases hcs
  | case5 => cases hcs
  | case6 n low ps hhigh hlow ih =>
    obtain ⟨cs, htail, rfl⟩ := Option.map_eq_some_iff.mp hcs
    obtain ⟨v, ws, rfl, hv, hps⟩ := written_of_pieces hps
    exact (charWritten_unit hv hhigh hlow).cons (ih htail hps)
  | case7 => cases hcs
  | case8 n ps _ hhalf ih =>
    obtain ⟨cs, htail, rfl⟩ := Option.map_eq_some_iff.mp hcs
    obtain ⟨v, ws, rfl, hv, hps⟩ := written_of_pieces hps
    rw [Bool.or_eq_true, not_or] at hhalf
    exact (charWritten_unit hv hhalf.1 hhalf.2).cons (ih htail hps)

end ReportQuorum.Json.Token
