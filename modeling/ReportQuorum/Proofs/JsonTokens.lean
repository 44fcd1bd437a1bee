import Mathlib.Data.List.Chain
import ReportQuorum.Proofs.JsonNumbers
import ReportQuorum.Proofs.JsonStrings

/-!
# How tokens are written

A text is a sequence of tokens, each with as many blanks before it as one likes. What is written
leaves no choice of where a token ends, but for two numbers side by side: nobody could say where the
first of them ends. Apart from these, a text is read as the tokens that are written in it.

Strings that name no text are left out, for no reader accepts half of a surrogate pair.

## Main definitions

* `Json.Token.Lexeme`: the ways to write a token
* `Json.Spelled`: the ways to write a sequence of tokens
* `Json.Token.Separated`: no two numbers stand side by side

## Main results

* `Json.Token.scan_of_spelled`: the tokens that are written in a text are read
* `Json.Token.spelled_of_scan`: the tokens that are read are written in the text
-/

namespace ReportQuorum.Json

namespace Token

/-- The ways to write a token. -/
inductive Lexeme : Token → List Char → Prop
  | openBrace : Lexeme .openBrace ['{']
  | closeBrace : Lexeme .closeBrace ['}']
  | openBracket : Lexeme .openBracket ['[']
  | closeBracket : Lexeme .closeBracket [']']
  | colon : Lexeme .colon [':']
  | comma : Lexeme .comma [',']
  | null : Lexeme .null ['n', 'u', 'l', 'l']
  | true : Lexeme (.bool true) ['t', 'r', 'u', 'e']
  | false : Lexeme (.bool false) ['f', 'a', 'l', 's', 'e']
  | number {n : Numeral} {w : List Char} (h : NumeralWritten n w) : Lexeme (.number n) w
  | string {s : String} {w : List Char} (h : CharsWritten s.toList w) :
    Lexeme (.string (some s)) ('"' :: (w ++ ['"']))

end Token

/-- The ways to write a sequence of tokens, with blanks before, between and after them. -/
inductive Spelled : List Token → List Char → Prop
  | nil : Spelled [] []
  | blank {c : Char} {ts : List Token} {cs : List Char} (h : c ∈ [' ', '\t', '\n', '\r'])
    (hcs : Spelled ts cs) : Spelled ts (c :: cs)
  | token {t : Token} {ts : List Token} {w cs : List Char} (h : t.Lexeme w) (hcs : Spelled ts cs) :
    Spelled (t :: ts) (w ++ cs)

namespace Token

/-! ### Reading a token -/

/-- Whether a token is a number. -/
def IsNumber : Token → Prop
  | .number _ => True
  | _ => False

theorem afterWord_append (w rest : List Char) : afterWord w (w ++ rest) = some rest := by
  induction w with
  | nil => rfl
  | cons c w ih => rw [List.cons_append, afterWord, if_pos rfl, ih]

theorem eq_append_of_afterWord {w cs rest : List Char} (h : afterWord w cs = some rest) :
    cs = w ++ rest := by
  fun_induction afterWord w cs with
  | case1 => cases h; rfl
  | case2 w ws cs ih => rw [ih h]; rfl
  | case3 => cases h
  | case4 => cases h

/-- No other token begins with a digit. -/
theorem next_digit {c : Char} {d : Nat} (h : digit? c = some d) (rest : List Char) :
    next c rest = (numeral false (c :: rest)).map fun (n, rest) => (.number n, rest) := by
  unfold next
  split <;> first | rfl | cases h

/-- A token is read as it is written, a number up to where it does not go on. -/
theorem next_lexeme {t : Token} {w rest : List Char} (h : t.Lexeme w)
    (hrest : t.IsNumber → Stops rest) :
    ∃ c cs, w = c :: cs ∧ isBlank c = false ∧ next c (cs ++ rest) = some (t, rest) := by
  cases h with
  | number h =>
    rename_i n
    obtain ⟨cs, rfl, ⟨c, cs, d, rfl, hd⟩, hread⟩ := numeral_append h (hrest trivial)
    -- A number begins with its sign or with its first digit.
    cases hn : n.negative with
    | true =>
      rw [hn] at hread
      refine ⟨'-', c :: cs, rfl, rfl, ?_⟩
      rw [List.cons_append] at hread
      simp [next, hread]
    | false =>
      rw [hn] at hread
      obtain ⟨hlt, hc⟩ := digit?_eq_some.mp hd
      refine ⟨c, cs, rfl, ?_, ?_⟩
      · have key : ∀ d < 10, isBlank (Nat.digitChar d) = false := by decide
        rw [hc]
        exact key d hlt
      · rw [next_digit hd, ← List.cons_append, hread]
        rfl
  | string h =>
    obtain ⟨ps, hps, hcs⟩ := pieces_of_charsWritten h rest
    refine ⟨'"', _, rfl, rfl, ?_⟩
    rw [List.append_assoc, List.singleton_append, next, hps]
    simp [hcs]
  | null => exact ⟨_, _, rfl, rfl, by simp only [next, afterWord_append]; rfl⟩
  | true => exact ⟨_, _, rfl, rfl, by simp only [next, afterWord_append]; rfl⟩
  | false => exact ⟨_, _, rfl, rfl, by simp only [next, afterWord_append]; rfl⟩
  | _ => exact ⟨_, _, rfl, rfl, rfl⟩

/-- What is read as a token is written as one. -/
theorem lexeme_of_next {c : Char} {cs rest : List Char} {t : Token}
    (h : next c cs = some (t, rest)) (ht : t ≠ .string none) :
    ∃ w, c :: cs = w ++ rest ∧ t.Lexeme w := by
  unfold next at h
  split at h
  case h_7 | h_8 | h_9 =>
    obtain ⟨r, hr, he⟩ := Option.map_eq_some_iff.mp h
    cases he
    rw [eq_append_of_afterWord hr]
    exact ⟨_, rfl, by constructor⟩
  case h_10 =>
    obtain ⟨⟨ps, r⟩, hr, he⟩ := Option.map_eq_some_iff.mp h
    cases he
    cases hchars : characters? ps with
    | none => simp [hchars] at ht
    | some chars =>
      obtain ⟨w, rfl, hw⟩ := charsWritten_of_pieces hchars hr
      refine ⟨'"' :: (w ++ ['"']), by simp, .string ?_⟩
      rwa [String.toList_ofList]
  case h_11 =>
    obtain ⟨⟨n, r⟩, hr, he⟩ := Option.map_eq_some_iff.mp h
    cases he
    obtain ⟨w, rfl, hw⟩ := written_of_numeral hr
    exact ⟨_, rfl, .number hw⟩
  -- Without a sign the first character belongs to the digits.
  case h_12 =>
    obtain ⟨⟨n, r⟩, hr, he⟩ := Option.map_eq_some_iff.mp h
    cases he
    obtain ⟨w, hcs, hw⟩ := written_of_numeral hr
    exact ⟨_, hcs, .number hw⟩
  all_goals
    cases h
    exact ⟨_, rfl, by constructor⟩

/-! ### Reading a text -/

/-- No two numbers stand side by side. -/
def Separated : List Token → Prop := List.IsChain fun a b => ¬ (a.IsNumber ∧ b.IsNumber)

theorem stops_cons {c : Char} {rest : List Char} (hdigit : digit? c = none)
    (h : c ∉ ['.', 'e', 'E']) : Stops (c :: rest) := by
  simp only [List.mem_cons, List.not_mem_nil, or_false, not_or] at h
  exact ⟨noDigit_cons hdigit, by simp [h], by simp [h]⟩

/-- No token but a number goes on with a number. -/
theorem stops_of_spelled {ts : List Token} {cs : List Char} (h : Spelled ts cs)
    (hnumber : ∀ t ∈ ts.head?, ¬ t.IsNumber) : Stops cs := by
  cases h with
  | nil => exact ⟨by simp [NoDigit], by simp, by simp⟩
  | blank h _ =>
    simp only [List.mem_cons, List.not_mem_nil, or_false] at h
    obtain rfl | rfl | rfl | rfl := h <;> exact stops_cons (by decide) (by decide)
  | token h _ =>
    cases h with
    | number h => exact absurd trivial (hnumber _ rfl)
    | _ => exact stops_cons (by decide) (by decide)

theorem isBlank_iff_mem {c : Char} : isBlank c = true ↔ c ∈ [' ', '\t', '\n', '\r'] := by
  simp [isBlank, or_assoc]

/-- The tokens that are written in a text are read, unless two numbers stand side by side. -/
theorem scan_of_spelled {ts : List Token} {cs : List Char} (h : Spelled ts cs)
    (hts : Separated ts) : scan cs = some ts := by
  induction h with
  | nil => rw [scan]
  | blank hc _ ih => rw [scan, if_pos (isBlank_iff_mem.mpr hc), ih hts]
  | @token t ts w cs hw hcs ih =>
    -- What follows a number begins with a blank or with a token that is no number.
    have hstops : t.IsNumber → Stops cs := fun ht =>
      stops_of_spelled hcs fun u hu hnumber => (List.isChain_cons.mp hts).1 u hu ⟨ht, hnumber⟩
    obtain ⟨c, cs', rfl, hblank, hnext⟩ := next_lexeme hw hstops
    rw [List.cons_append, scan, if_neg (by simp [hblank])]
    split
    · next hnone => simp [hnext] at hnone
    · next t' rest' hsome =>
      cases hnext.symm.trans hsome
      rw [ih (List.isChain_cons.mp hts).2]
      rfl

/-- The tokens that are read are written in the text, unless a string among them names no text. -/
theorem spelled_of_scan {ts : List Token} {cs : List Char} (h : scan cs = some ts)
    (hts : .string none ∉ ts) : Spelled ts cs := by
  fun_induction scan cs generalizing ts with
  | case1 => cases h; exact .nil
  | case2 c cs hblank ih => exact .blank (isBlank_iff_mem.mp hblank) (ih h hts)
  | case3 => cases h
  | case4 c cs hblank t rest hnext hlt ih =>
    obtain ⟨ts, htail, rfl⟩ := Option.map_eq_some_iff.mp h
    rw [List.mem_cons, not_or] at hts
    obtain ⟨w, hcs, hw⟩ := lexeme_of_next hnext (Ne.symm hts.1)
    rw [hcs]
    exact .token hw (ih htail hts.2)

end Token

end ReportQuorum.Json
