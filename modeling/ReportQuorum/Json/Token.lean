import ReportQuorum.Json.Tree

/-!
# The tokens of a JSON text

A text is cut into punctuation, the three words, numbers and strings; blanks between them are
dropped. Only the four blanks, the short escapes and the number forms of the standard are known.

## Main definitions

* `Json.Token`: a token
* `Json.Token.scan`: the tokens of a text, or nothing if some part of it is no token

## Main results

* `Json.Token.length_next_le`: reading a token leaves no more than was there
-/

namespace ReportQuorum.Json

/-- A token of a JSON text. -/
inductive Token where
  | openBrace
  | closeBrace
  | openBracket
  | closeBracket
  | colon
  | comma
  | null
  | bool (b : Bool)
  | number (n : Numeral)
  | string (s : Text)
deriving DecidableEq, Repr

namespace Token

/-- The blanks that may stand between tokens. -/
def isBlank (c : Char) : Bool := c == ' ' || c == '\t' || c == '\n' || c == '\r'

/-- What follows a given beginning. -/
def afterWord : List Char → List Char → Option (List Char)
  | [], rest => some rest
  | w :: ws, c :: rest => if c = w then afterWord ws rest else none
  | _ :: _, [] => none

/-! ### Strings -/

/-- One written element of a string. -/
inductive Piece where
  /-- A character that stands for itself, or a short escape. -/
  | char (c : Char)
  /-- The number that a four-digit escape names: a character or half of a surrogate pair. -/
  | unit (n : Nat)
deriving DecidableEq, Repr

/-- The value of a hexadecimal digit of either case. -/
def hexValue? (c : Char) : Option Nat :=
  if '0' ≤ c ∧ c ≤ '9' then some (c.toNat - 48)
  else if 'a' ≤ c ∧ c ≤ 'f' then some (c.toNat - 87)
  else if 'A' ≤ c ∧ c ≤ 'F' then some (c.toNat - 55)
  else none

/-- The number named by four hexadecimal digits. -/
def unit? (a b c d : Char) : Option Nat := do
  let a ← hexValue? a
  let b ← hexValue? b
  let c ← hexValue? c
  let d ← hexValue? d
  return 4096 * a + 256 * b + 16 * c + d

/-- The character that a short escape stands for. -/
def shortEscape? : Char → Option Char
  | '"' => some '"'
  | '\\' => some '\\'
  | '/' => some '/'
  | 'b' => some '\x08'
  | 'f' => some '\x0c'
  | 'n' => some '\n'
  | 'r' => some '\r'
  | 't' => some '\t'
  | _ => none

/-- The elements of a string up to its closing quote, and what follows the quote. -/
def pieces : List Char → Option (List Piece × List Char)
  | [] => none
  | '"' :: rest => some ([], rest)
  | '\\' :: 'u' :: a :: b :: c :: d :: rest => do
    let n ← unit? a b c d
    let (ps, rest) ← pieces rest
    return (.unit n :: ps, rest)
  | '\\' :: e :: rest => do
    let c ← shortEscape? e
    let (ps, rest) ← pieces rest
    return (.char c :: ps, rest)
  | c :: rest =>
    if c.toNat < 0x20 ∨ c = '\\' then none
    else do
      let (ps, rest) ← pieces rest
      return (.char c :: ps, rest)

/-- The first half of a surrogate pair. -/
def isHighHalf (n : Nat) : Bool := 0xd800 ≤ n && n < 0xdc00

/-- The second half of a surrogate pair. -/
def isLowHalf (n : Nat) : Bool := 0xdc00 ≤ n && n < 0xe000

/-- The characters of a string's elements, unless half of a surrogate pair stands alone. -/
def characters? : List Piece → Option (List Char)
  | [] => some []
  | .char c :: ps => (characters? ps).map (c :: ·)
  | .unit h :: .unit l :: ps =>
    if isHighHalf h then
      -- Both halves together number one character.
      if isLowHalf l then
        (characters? ps).map (Char.ofNat (0x10000 + 1024 * (h - 0xd800) + (l - 0xdc00)) :: ·)
      else none
    else if isLowHalf h then none
    else (characters? (.unit l :: ps)).map (Char.ofNat h :: ·)
  | .unit n :: ps =>
    if isHighHalf n || isLowHalf n then none else (characters? ps).map (Char.ofNat n :: ·)

/-! ### Numbers -/

/-- The value of a decimal digit. -/
def digit? (c : Char) : Option Nat := if '0' ≤ c ∧ c ≤ '9' then some (c.toNat - 48) else none

/-- The longest run of digits at the front, and what follows it. -/
def digits : List Char → List Nat × List Char
  | [] => ([], [])
  | c :: rest =>
    match digit? c with
    | none => ([], c :: rest)
    | some d =>
      let (ds, rest) := digits rest
      (d :: ds, rest)

/-- The number with these digits. -/
def ofDigits (ds : List Nat) : Nat := ds.foldl (fun n d => 10 * n + d) 0

/-- The part of a literal before the point. A zero is followed by no further digit. -/
def wholePart : List Char → Option (Nat × List Char)
  | '0' :: rest => some (0, rest)
  | cs =>
    match digits cs with
    | ([], _) => none
    | (ds, rest) => some (ofDigits ds, rest)

/-- The point and the digits after it, if there is a point. -/
def fractionPart : List Char → Option (Option (List Nat) × List Char)
  | '.' :: rest =>
    match digits rest with
    | ([], _) => none
    | (ds, rest) => some (some ds, rest)
  | cs => some (none, cs)

/-- The digits of an exponent after its sign. -/
def exponentDigits (negative : Bool) (cs : List Char) : Option (Option Int × List Char) :=
  match digits cs with
  | ([], _) => none
  | (ds, rest) => some (some (if negative then -(ofDigits ds : Int) else ofDigits ds), rest)

/-- The exponent after its letter. -/
def exponentSigned : List Char → Option (Option Int × List Char)
  | '-' :: rest => exponentDigits true rest
  | '+' :: rest => exponentDigits false rest
  | cs => exponentDigits false cs

/-- The exponent, if there is one. -/
def exponentPart : List Char → Option (Option Int × List Char)
  | 'e' :: rest => exponentSigned rest
  | 'E' :: rest => exponentSigned rest
  | cs => some (none, cs)

/-- A number literal after its sign, and what follows it. -/
def numeral (negative : Bool) (cs : List Char) : Option (Numeral × List Char) := do
  let (whole, cs) ← wholePart cs
  let (fraction, cs) ← fractionPart cs
  let (exponent, cs) ← exponentPart cs
  return (⟨negative, whole, fraction, exponent⟩, cs)

/-! ### Texts -/

/-- The token that begins with a character, and what follows it. -/
def next (c : Char) (rest : List Char) : Option (Token × List Char) :=
  match c with
  | '{' => some (.openBrace, rest)
  | '}' => some (.closeBrace, rest)
  | '[' => some (.openBracket, rest)
  | ']' => some (.closeBracket, rest)
  | ':' => some (.colon, rest)
  | ',' => some (.comma, rest)
  | 'n' => (afterWord ['u', 'l', 'l'] rest).map (Token.null, ·)
  | 't' => (afterWord ['r', 'u', 'e'] rest).map (Token.bool true, ·)
  | 'f' => (afterWord ['a', 'l', 's', 'e'] rest).map (Token.bool false, ·)
  | '"' => (pieces rest).map fun (ps, rest) => (.string ((characters? ps).map String.ofList), rest)
  | '-' => (numeral true rest).map fun (n, rest) => (.number n, rest)
  -- Nothing else but a number begins with another character.
  | c => (numeral false (c :: rest)).map fun (n, rest) => (.number n, rest)

theorem length_afterWord_le {w cs rest : List Char} (h : afterWord w cs = some rest) :
    rest.length ≤ cs.length := by
  fun_induction afterWord w cs with
  | case1 => simp_all
  | case2 w ws rest' ih => have := ih h; simp only [List.length_cons]; omega
  | case3 => simp at h
  | case4 => simp at h

theorem length_pieces_lt {cs rest : List Char} {ps : List Piece} (h : pieces cs = some (ps, rest)) :
    rest.length < cs.length := by
  fun_induction pieces cs generalizing ps with
  | case1 => simp at h
  | case2 => simp_all
  | case3 a b c d r ih =>
    simp only [bind, Option.bind_eq_some_iff, pure, Option.some.injEq, Prod.exists] at h
    obtain ⟨n, -, qs, r', hr, hp⟩ := h
    obtain ⟨-, rfl⟩ := Prod.mk.inj hp
    have := ih hr
    simp only [List.length_cons]
    omega
  | case4 e r _ ih =>
    simp only [bind, Option.bind_eq_some_iff, pure, Option.some.injEq, Prod.exists] at h
    obtain ⟨c, -, qs, r', hr, hp⟩ := h
    obtain ⟨-, rfl⟩ := Prod.mk.inj hp
    have := ih hr
    simp only [List.length_cons]
    omega
  | case5 => simp at h
  | case6 c r _ _ _ _ ih =>
    simp only [bind, Option.bind_eq_some_iff, pure, Option.some.injEq, Prod.exists] at h
    obtain ⟨qs, r', hr, hp⟩ := h
    obtain ⟨-, rfl⟩ := Prod.mk.inj hp
    have := ih hr
    simp only [List.length_cons]
    omega

theorem length_digits_le (cs : List Char) : (digits cs).2.length ≤ cs.length := by
  fun_induction digits cs with
  | case1 => simp
  | case2 => simp
  | case3 c rest d hd ds r he ih => simp_all; omega

theorem length_digits_lt {cs : List Char} (h : (digits cs).1 ≠ []) :
    (digits cs).2.length < cs.length := by
  cases cs with
  | nil => simp [digits] at h
  | cons c rest =>
    have := length_digits_le rest
    cases hd : digit? c with
    | none => simp [digits, hd] at h
    | some d => simp only [digits, hd, List.length_cons]; omega

theorem length_wholePart_lt {cs rest : List Char} {n : Nat} (h : wholePart cs = some (n, rest)) :
    rest.length < cs.length := by
  unfold wholePart at h
  split at h
  · simp_all
  · split at h
    · simp at h
    · next ds r hne he =>
      obtain ⟨-, rfl⟩ := Prod.mk.inj (Option.some.inj h)
      have := length_digits_lt (by rw [he]; exact hne)
      rwa [he] at this

theorem length_fractionPart_le {cs rest : List Char} {f : Option (List Nat)}
    (h : fractionPart cs = some (f, rest)) : rest.length ≤ cs.length := by
  unfold fractionPart at h
  split at h
  · next r =>
    split at h
    · simp at h
    · next ds r' _ he =>
      obtain ⟨-, rfl⟩ := Prod.mk.inj (Option.some.inj h)
      have := length_digits_le r
      rw [he] at this
      simp only [List.length_cons] at this ⊢
      omega
  · simp_all

theorem length_exponentDigits_le {negative : Bool} {cs rest : List Char} {e : Option Int}
    (h : exponentDigits negative cs = some (e, rest)) : rest.length ≤ cs.length := by
  unfold exponentDigits at h
  split at h
  · simp at h
  · next ds r _ he =>
    obtain ⟨-, rfl⟩ := Prod.mk.inj (Option.some.inj h)
    have := length_digits_le cs
    rwa [he] at this

theorem length_exponentSigned_le {cs rest : List Char} {e : Option Int}
    (h : exponentSigned cs = some (e, rest)) : rest.length ≤ cs.length := by
  unfold exponentSigned at h
  split at h
  · exact Nat.le_succ_of_le (length_exponentDigits_le h)
  · exact Nat.le_succ_of_le (length_exponentDigits_le h)
  · exact length_exponentDigits_le h

theorem length_exponentPart_le {cs rest : List Char} {e : Option Int}
    (h : exponentPart cs = some (e, rest)) : rest.length ≤ cs.length := by
  unfold exponentPart at h
  split at h
  · exact Nat.le_succ_of_le (length_exponentSigned_le h)
  · exact Nat.le_succ_of_le (length_exponentSigned_le h)
  · simp_all

theorem length_numeral_lt {negative : Bool} {cs rest : List Char} {n : Numeral}
    (h : numeral negative cs = some (n, rest)) : rest.length < cs.length := by
  simp only [numeral, bind, Option.bind_eq_some_iff, pure, Option.some.injEq, Prod.exists] at h
  obtain ⟨w, r₁, h₁, f, r₂, h₂, e, r₃, h₃, h₄⟩ := h
  obtain ⟨-, rfl⟩ := Prod.mk.inj h₄
  have := length_wholePart_lt h₁
  have := length_fractionPart_le h₂
  have := length_exponentPart_le h₃
  omega

/-- Reading a token leaves no more than was there after its first character. -/
theorem length_next_le {c : Char} {cs rest : List Char} {t : Token}
    (h : next c cs = some (t, rest)) : rest.length ≤ cs.length := by
  unfold next at h
  split at h
  case h_7 | h_8 | h_9 =>
    obtain ⟨r, hr, he⟩ := Option.map_eq_some_iff.1 h
    obtain ⟨-, rfl⟩ := Prod.mk.inj he
    exact length_afterWord_le hr
  case h_10 =>
    obtain ⟨⟨ps, r⟩, hr, he⟩ := Option.map_eq_some_iff.1 h
    obtain ⟨-, rfl⟩ := Prod.mk.inj he
    exact Nat.le_of_lt (length_pieces_lt hr)
  case h_11 =>
    obtain ⟨⟨n, r⟩, hr, he⟩ := Option.map_eq_some_iff.1 h
    obtain ⟨-, rfl⟩ := Prod.mk.inj he
    exact Nat.le_of_lt (length_numeral_lt hr)
  case h_12 =>
    obtain ⟨⟨n, r⟩, hr, he⟩ := Option.map_eq_some_iff.1 h
    obtain ⟨-, rfl⟩ := Prod.mk.inj he
    exact Nat.le_of_lt_succ (length_numeral_lt hr)
  all_goals
    obtain ⟨-, rfl⟩ := Prod.mk.inj (Option.some.inj h)
    exact Nat.le_refl _

/-- The tokens of a text. -/
def scan : List Char → Option (List Token)
  | [] => some []
  | c :: rest =>
    if isBlank c then scan rest
    else
      match h : next c rest with
      | none => none
      | some (t, rest') =>
        have := length_next_le h
        (scan rest').map (t :: ·)
termination_by cs => cs.length
decreasing_by
  · simp
  · simp only [List.length_cons]; omega

end Token

end ReportQuorum.Json
