import Mathlib.Data.Nat.Digits.Defs
import ReportQuorum.Json.Token

/-!
# How numbers are written

The exponent of a number may be written with either letter, with leading zeros and with a plus sign;
all else is written in one way. Here these ways are listed without regard to how a text is read. A
number has no mark of its end, so what is written is read if what follows does not go on with it.

## Main definitions

* `Json.Token.NumeralWritten`: the ways to write a number
* `Json.Token.Stops`: what follows does not go on with a number

## Main results

* `Json.Token.numeral_append`: a number is read as it is written
* `Json.Token.written_of_numeral`: a number is written as it is read
-/

namespace ReportQuorum.Json.Token

/-! ### Ways of writing -/

/-- At least one decimal digit. -/
structure IsDigits (ds : List Nat) : Prop where
  ne_nil : ds ≠ []
  lt_ten : ∀ d ∈ ds, d < 10

/-- The ways to write the part of a number from the point to the exponent. -/
inductive FractionWritten : Option (List Nat) → List Char → Prop
  | absent : FractionWritten none []
  | present {ds : List Nat} (h : IsDigits ds) :
    FractionWritten (some ds) ('.' :: ds.map Nat.digitChar)

/-- The ways to write an exponent. -/
inductive ExponentWritten : Option Int → List Char → Prop
  | absent : ExponentWritten none []
  | natural {letter : Char} {sign : List Char} {ds : List Nat}
    (hletter : letter = 'e' ∨ letter = 'E') (hsign : sign = [] ∨ sign = ['+']) (h : IsDigits ds) :
    ExponentWritten (some (ofDigits ds)) (letter :: (sign ++ ds.map Nat.digitChar))
  | negative {letter : Char} {ds : List Nat} (hletter : letter = 'e' ∨ letter = 'E')
    (h : IsDigits ds) :
    ExponentWritten (some (-(ofDigits ds : Int))) (letter :: '-' :: ds.map Nat.digitChar)

/-- The ways to write a number. Only a zero that is the whole part begins with the digit zero. -/
inductive NumeralWritten : Numeral → List Char → Prop
  | intro (negative : Bool) {ds : List Nat} {fraction : Option (List Nat)} {exponent : Option Int}
    {f e : List Char} (hwhole : IsDigits ds) (hzero : ds.head? = some 0 → ds = [0])
    (hfraction : FractionWritten fraction f) (hexponent : ExponentWritten exponent e) :
    NumeralWritten ⟨negative, ofDigits ds, fraction, exponent⟩
      ((if negative then ['-'] else []) ++ (ds.map Nat.digitChar ++ (f ++ e)))

/-! ### Digits -/

theorem digit?_eq_some {c : Char} {d : Nat} : digit? c = some d ↔ d < 10 ∧ c = Nat.digitChar d := by
  constructor
  · intro h
    unfold digit? at h
    split_ifs at h with hdigit
    change 48 ≤ c.toNat ∧ c.toNat ≤ 57 at hdigit
    obtain rfl := Option.some.inj h
    have hd : c.toNat - 48 < 10 := by omega
    refine ⟨hd, Char.toNat_inj.mp ?_⟩
    rw [Nat.toNat_digitChar_of_lt_ten hd]
    omega
  · rintro ⟨hd, rfl⟩
    have key : ∀ d < 10, digit? (Nat.digitChar d) = some d := by decide
    exact key d hd

/-- What follows does not begin with a digit. -/
def NoDigit (rest : List Char) : Prop := ∀ c ∈ rest.head?, digit? c = none

theorem digits_of_noDigit {rest : List Char} (h : NoDigit rest) : digits rest = ([], rest) := by
  cases rest with
  | nil => rfl
  | cons c rest => rw [digits, h c rfl]

/-- All of a run of digits is read. -/
theorem digits_append {ds : List Nat} {rest : List Char} (hds : ∀ d ∈ ds, d < 10)
    (h : NoDigit rest) : digits (ds.map Nat.digitChar ++ rest) = (ds, rest) := by
  induction ds with
  | nil => exact digits_of_noDigit h
  | cons d ds ih =>
    obtain ⟨hd, hds⟩ := List.forall_mem_cons.mp hds
    rw [List.map_cons, List.cons_append, digits, digit?_eq_some.mpr ⟨hd, rfl⟩, ih hds]

/-- What is read as digits is a run of digits. -/
theorem eq_append_of_digits {cs rest : List Char} {ds : List Nat} (h : digits cs = (ds, rest)) :
    cs = ds.map Nat.digitChar ++ rest ∧ ∀ d ∈ ds, d < 10 := by
  fun_induction digits cs generalizing ds with
  | case1 => cases h; simp
  | case2 => cases h; simp
  | case3 c rest' d hd ds' rest'' he ih =>
    obtain ⟨rfl, rfl⟩ := Prod.mk.inj h
    obtain ⟨rfl, hds⟩ := ih he
    obtain ⟨hlt, rfl⟩ := digit?_eq_some.mp hd
    exact ⟨rfl, List.forall_mem_cons.mpr ⟨hlt, hds⟩⟩

/-- Digits begin with a digit, whatever follows them. -/
theorem map_digitChar_head {ds : List Nat} (h : IsDigits ds) (cs : List Char) :
    ∃ c w d, ds.map Nat.digitChar ++ cs = c :: w ∧ digit? c = some d := by
  obtain ⟨d, ds', rfl⟩ := List.exists_cons_of_ne_nil h.ne_nil
  exact ⟨Nat.digitChar d, ds'.map Nat.digitChar ++ cs, d, rfl,
    digit?_eq_some.mpr ⟨h.lt_ten d (by simp), rfl⟩⟩

/-- Of the digits of the whole part a zero is not read alone, unless it is the only one. -/
theorem wholePart_append {ds : List Nat} {rest : List Char} (h : IsDigits ds)
    (hzero : ds.head? = some 0 → ds = [0]) (hrest : NoDigit rest) :
    wholePart (ds.map Nat.digitChar ++ rest) = some (ofDigits ds, rest) := by
  obtain ⟨d, ds, rfl⟩ := List.exists_cons_of_ne_nil h.ne_nil
  by_cases hd : d = 0
  · subst hd
    rw [hzero rfl]
    rfl
  · have hdigits := digits_append h.lt_ten hrest
    have hne : Nat.digitChar d ≠ '0' := by
      have key : ∀ d < 10, d ≠ 0 → Nat.digitChar d ≠ '0' := by decide
      exact key d (h.lt_ten d (by simp)) hd
    unfold wholePart
    split
    · next heq => simp_all
    · rw [hdigits]

/-- What is read as the whole part is a run of digits in which only a lone zero comes first. -/
theorem written_of_wholePart {cs rest : List Char} {n : Nat} (h : wholePart cs = some (n, rest)) :
    ∃ ds, n = ofDigits ds ∧ cs = ds.map Nat.digitChar ++ rest ∧ IsDigits ds ∧
      (ds.head? = some 0 → ds = [0]) := by
  unfold wholePart at h
  split at h
  · cases h
    exact ⟨[0], rfl, rfl, ⟨by simp, by simp⟩, fun _ => rfl⟩
  · next hzero =>
    split at h
    · cases h
    · next ds rest' hne hds =>
      obtain ⟨rfl, rfl⟩ := Prod.mk.inj (Option.some.inj h)
      obtain ⟨rfl, hlt⟩ := eq_append_of_digits hds
      refine ⟨ds, rfl, rfl, ⟨hne, hlt⟩, fun hhead => ?_⟩
      -- A zero that comes first has been read by itself.
      obtain ⟨ds, rfl⟩ : ∃ ds', ds = 0 :: ds' := by
        cases ds with
        | nil => cases hhead
        | cons d ds => cases hhead; exact ⟨ds, rfl⟩
      exact absurd rfl (hzero _)

theorem noDigit_cons {c : Char} {rest : List Char} (h : digit? c = none) : NoDigit (c :: rest) := by
  rintro d ⟨⟩
  exact h

/-! ### Fractions and exponents -/

theorem fractionPart_append {fraction : Option (List Nat)} {f rest : List Char}
    (h : FractionWritten fraction f) (hdigit : NoDigit rest) (hpoint : rest.head? ≠ some '.') :
    fractionPart (f ++ rest) = some (fraction, rest) := by
  cases h with
  | absent =>
    rw [List.nil_append]
    unfold fractionPart
    split
    · simp at hpoint
    · rfl
  | present h =>
    rename_i ds
    rw [List.cons_append, fractionPart, digits_append h.lt_ten hdigit]
    have := h.ne_nil
    cases ds <;> simp_all

theorem written_of_fractionPart {fraction : Option (List Nat)} {cs rest : List Char}
    (h : fractionPart cs = some (fraction, rest)) :
    ∃ f, cs = f ++ rest ∧ FractionWritten fraction f := by
  unfold fractionPart at h
  split at h
  · split at h
    · cases h
    · next ds rest' hne hds =>
      obtain ⟨rfl, rfl⟩ := Prod.mk.inj (Option.some.inj h)
      obtain ⟨rfl, hlt⟩ := eq_append_of_digits hds
      exact ⟨_, rfl, .present ⟨hne, hlt⟩⟩
  · cases h
    exact ⟨[], rfl, .absent⟩

theorem exponentDigits_append {ds : List Nat} {rest : List Char} (negative : Bool) (h : IsDigits ds)
    (hdigit : NoDigit rest) :
    exponentDigits negative (ds.map Nat.digitChar ++ rest) =
      some (some (if negative then -(ofDigits ds : Int) else ofDigits ds), rest) := by
  rw [exponentDigits, digits_append h.lt_ten hdigit]
  have := h.ne_nil
  cases ds <;> simp_all

theorem written_of_exponentDigits {negative : Bool} {cs rest : List Char} {e : Option Int}
    (h : exponentDigits negative cs = some (e, rest)) :
    ∃ ds, cs = ds.map Nat.digitChar ++ rest ∧ IsDigits ds ∧
      e = some (if negative then -(ofDigits ds : Int) else ofDigits ds) := by
  unfold exponentDigits at h
  split at h
  · cases h
  · next ds rest' hne hds =>
    obtain ⟨rfl, rfl⟩ := Prod.mk.inj (Option.some.inj h)
    obtain ⟨rfl, hlt⟩ := eq_append_of_digits hds
    exact ⟨ds, rfl, ⟨hne, hlt⟩, rfl⟩

theorem exponentSigned_digits {ds : List Nat} {rest : List Char} (h : IsDigits ds)
    (hdigit : NoDigit rest) :
    exponentSigned (ds.map Nat.digitChar ++ rest) = some (some (ofDigits ds : Int), rest) := by
  -- The first digit is not taken for a sign.
  have hdigits := exponentDigits_append false h hdigit
  obtain ⟨c, w, d, he, hd⟩ := map_digitChar_head h rest
  rw [he] at hdigits ⊢
  unfold exponentSigned
  split
  · next heq => cases heq; cases hd
  · next heq => cases heq; cases hd
  · exact hdigits

theorem exponentPart_letter {letter : Char} (h : letter = 'e' ∨ letter = 'E') (cs : List Char) :
    exponentPart (letter :: cs) = exponentSigned cs := by
  obtain rfl | rfl := h <;> rfl

theorem exponentPart_append {exponent : Option Int} {e rest : List Char}
    (h : ExponentWritten exponent e) (hdigit : NoDigit rest)
    (hletter : rest.head? ≠ some 'e' ∧ rest.head? ≠ some 'E') :
    exponentPart (e ++ rest) = some (exponent, rest) := by
  cases h with
  | absent =>
    rw [List.nil_append]
    unfold exponentPart
    split
    · exact absurd rfl hletter.1
    · exact absurd rfl hletter.2
    · rfl
  | natural hl hsign h =>
    rw [List.cons_append, exponentPart_letter hl, List.append_assoc]
    obtain rfl | rfl := hsign
    · exact exponentSigned_digits h hdigit
    · exact exponentDigits_append false h hdigit
  | negative hl h =>
    rw [List.cons_append, exponentPart_letter hl]
    exact exponentDigits_append true h hdigit

theorem written_of_exponentSigned {letter : Char} (hl : letter = 'e' ∨ letter = 'E')
    {exponent : Option Int} {cs rest : List Char} (h : exponentSigned cs = some (exponent, rest)) :
    ∃ e, letter :: cs = e ++ rest ∧ ExponentWritten exponent e := by
  unfold exponentSigned at h
  split at h
  · obtain ⟨ds, rfl, hds, rfl⟩ := written_of_exponentDigits h
    exact ⟨_, rfl, .negative hl hds⟩
  · obtain ⟨ds, rfl, hds, rfl⟩ := written_of_exponentDigits h
    exact ⟨_, rfl, .natural hl (.inr rfl) hds⟩
  · obtain ⟨ds, rfl, hds, rfl⟩ := written_of_exponentDigits h
    exact ⟨_, rfl, .natural hl (.inl rfl) hds⟩

theorem written_of_exponentPart {exponent : Option Int} {cs rest : List Char}
    (h : exponentPart cs = some (exponent, rest)) :
    ∃ e, cs = e ++ rest ∧ ExponentWritten exponent e := by
  unfold exponentPart at h
  split at h
  · exact written_of_exponentSigned (.inl rfl) h
  · exact written_of_exponentSigned (.inr rfl) h
  · cases h
    exact ⟨[], rfl, .absent⟩

/-! ### Numerals -/

/-- What follows does not go on with a number. -/
structure Stops (rest : List Char) : Prop where
  noDigit : NoDigit rest
  noPoint : rest.head? ≠ some '.'
  noLetter : rest.head? ≠ some 'e' ∧ rest.head? ≠ some 'E'

theorem ExponentWritten.stops {exponent : Option Int} {e rest : List Char}
    (h : ExponentWritten exponent e) (hrest : Stops rest) :
    NoDigit (e ++ rest) ∧ (e ++ rest).head? ≠ some '.' := by
  have letter {c : Char} (w : List Char) (hc : c = 'e' ∨ c = 'E') :
      NoDigit (c :: w) ∧ (c :: w).head? ≠ some '.' := by
    obtain rfl | rfl := hc <;> exact ⟨noDigit_cons (by decide), by simp⟩
  cases h with
  | absent => exact ⟨hrest.noDigit, hrest.noPoint⟩
  | natural hl _ _ => exact letter _ hl
  | negative hl _ => exact letter _ hl

theorem FractionWritten.noDigit {fraction : Option (List Nat)} {f rest : List Char}
    (h : FractionWritten fraction f) (hrest : NoDigit rest) : NoDigit (f ++ rest) := by
  cases h with
  | absent => exact hrest
  | present _ => exact noDigit_cons (by decide)

/-- A number is read as it is written: first its sign, if it has one, and then from a digit on. -/
theorem numeral_append {n : Numeral} {w rest : List Char} (h : NumeralWritten n w)
    (hrest : Stops rest) :
    ∃ cs, w = (if n.negative then ['-'] else []) ++ cs ∧
      (∃ c cs' d, cs = c :: cs' ∧ digit? c = some d) ∧
      numeral n.negative (cs ++ rest) = some (n, rest) := by
  obtain ⟨negative, hwhole, hzero, hfraction, hexponent⟩ := h
  rename_i ds fraction exponent f e
  -- Each part ends where the next one begins, and the last one where the number does.
  obtain ⟨hdigit, hpoint⟩ := hexponent.stops hrest
  refine ⟨_, rfl, ?_, ?_⟩
  · obtain ⟨c, cs, d, hcs, hd⟩ := map_digitChar_head hwhole (f ++ e)
    exact ⟨c, cs, d, hcs, hd⟩
  · rw [List.append_assoc, List.append_assoc, numeral,
      wholePart_append hwhole hzero (hfraction.noDigit hdigit)]
    simp only [bind, Option.bind_some, fractionPart_append hfraction hdigit hpoint,
      exponentPart_append hexponent hrest.noDigit hrest.noLetter]
    rfl

/-- A number is written as it is read. -/
theorem written_of_numeral {negative : Bool} {n : Numeral} {cs rest : List Char}
    (h : numeral negative cs = some (n, rest)) :
    ∃ w, cs = w ++ rest ∧ NumeralWritten n ((if negative then ['-'] else []) ++ w) := by
  simp only [numeral, bind, Option.bind_eq_some_iff, pure, Option.some.injEq, Prod.exists] at h
  obtain ⟨whole, cs', hw, fraction, cs'', hf, exponent, rest', he, hn⟩ := h
  cases hn
  obtain ⟨ds, rfl, rfl, hwhole, hzero⟩ := written_of_wholePart hw
  obtain ⟨f, rfl, hfraction⟩ := written_of_fractionPart hf
  obtain ⟨e, rfl, hexponent⟩ := written_of_exponentPart he
  exact ⟨_, by simp, .intro negative hwhole hzero hfraction hexponent⟩

end ReportQuorum.Json.Token
