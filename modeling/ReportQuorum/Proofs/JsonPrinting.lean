import ReportQuorum.Json.Printer
import ReportQuorum.Proofs.JsonTrees

/-!
# What is printed is read

The printer writes every token of a tree in one of the ways in which it may be written, and puts
nothing but blanks between them. So the text of a tree is read as the tree. Two kinds of trees have
no text of their own: those with a string that names no text, and those with a number that has a
point and no digits after it.

## Main definitions

* `Json.Token.Printable`, `Json.Tree.Printable`: the tokens and trees that have a text of their own

## Main results

* `Json.Tree.spelled_pretty`: the tokens of a tree are written in its text
-/

namespace ReportQuorum.Json

/-- Tokens that have a text of their own. -/
def Token.Printable : Token → Prop
  | .string s => s ≠ none
  | .number n => ∀ ds ∈ n.fraction, IsDigits ds
  | _ => True

/-! ### Sequences of tokens -/

namespace Spelled

variable {ts us : List Token} {cs ds : List Char}

theorem append (hts : Spelled ts cs) (hus : Spelled us ds) : Spelled (ts ++ us) (cs ++ ds) := by
  induction hts with
  | nil => exact hus
  | blank hc _ ih => exact .blank hc ih
  | token hw _ ih =>
    rw [List.cons_append, List.append_assoc]
    exact .token hw ih

theorem lexeme {t : Token} {w : List Char} (h : t.Lexeme w) : Spelled [t] w := by
  have hspelled := Spelled.token h .nil
  rwa [List.append_nil] at hspelled

theorem newline (level : Nat) (h : Spelled ts cs) : Spelled ts (Printer.newline level ++ cs) := by
  have blanks (n : Nat) : Spelled ts (List.replicate n ' ' ++ cs) := by
    induction n with
    | zero => exact h
    | succ n ih => exact .blank (by simp) ih
  exact .blank (by simp) (blanks _)

end Spelled

namespace Printer

open Token

/-! ### Strings -/

theorem charWritten_control {c : Char} (h : c.toNat < 0x20) :
    CharWritten c ['\\', 'u', '0', '0', hexDigit (c.toNat / 16), hexDigit (c.toNat % 16)] := by
  have digit {n : Nat} (hn : n < 16) : HexDigit n (hexDigit n) := ⟨hn, .inl rfl⟩
  have hzero : HexDigit 0 '0' := digit (by decide)
  have hnumber : c.toNat = 4096 * 0 + 256 * 0 + 16 * (c.toNat / 16) + c.toNat % 16 := by omega
  have hwritten := Piece.Written.unit hzero hzero (digit (n := c.toNat / 16) (by omega))
    (digit (n := c.toNat % 16) (by omega))
  rw [← hnumber] at hwritten
  exact .unit hwritten

theorem charWritten_escaped (c : Char) : CharWritten c (escaped c) := by
  unfold escaped
  split_ifs with hquote hescape _ _ _ _ _ hcontrol
  -- What is not escaped stands for itself, and what has no short escape is a control character.
  on_goal 9 => exact .direct (.plain (Nat.not_lt.mp hcontrol) hquote hescape)
  on_goal 8 => exact charWritten_control hcontrol
  all_goals
    subst c
    exact .direct (.short (by simp [shortEscapes]))

theorem charsWritten_escaped (cs : List Char) : CharsWritten cs (cs.flatMap escaped) := by
  induction cs with
  | nil => exact .nil
  | cons c cs ih => exact .cons (charWritten_escaped c) ih

/-! ### Numbers -/

/-- The decimal digits of a number, as they are printed. Only zero begins with a zero. -/
theorem toDigits_eq_map (n : Nat) :
    ∃ ds, Nat.toDigits 10 n = ds.map Nat.digitChar ∧ IsDigits ds ∧ ofDigits ds = n ∧
      (ds.head? = some 0 → ds = [0]) := by
  induction n using Nat.strongRecOn with
  | ind n ih =>
    by_cases hn : n < 10
    · refine ⟨[n], Nat.toDigits_of_lt_base hn, ⟨by simp, by simpa⟩, by simp [ofDigits], ?_⟩
      rintro ⟨⟩
      rfl
    -- The last digit follows those of a tenth, which does not begin with a zero as it is none.
    · obtain ⟨ds, hds, hdigits, hvalue, hzero⟩ := ih (n / 10) (by omega)
      have hlast : n % 10 < 10 := Nat.mod_lt n (by simp)
      refine ⟨ds ++ [n % 10], ?_, ⟨by simp, ?_⟩, ?_, fun hhead => ?_⟩
      · rw [Nat.toDigits_of_base_le (by simp) (Nat.not_lt.mp hn), hds, List.map_append]
        rfl
      · intro d hd
        rcases List.mem_append.mp hd with hd | hd
        · exact hdigits.lt_ten d hd
        · rwa [List.mem_singleton.mp hd]
      · rw [ofDigits, List.foldl_append, ← ofDigits, hvalue]
        simp only [List.foldl_cons, List.foldl_nil]
        omega
      · rw [List.head?_append_of_ne_nil _ hdigits.ne_nil] at hhead
        rw [hzero hhead] at hvalue
        simp only [ofDigits, List.foldl_cons, List.foldl_nil] at hvalue
        omega

theorem fractionWritten_printed (fraction : Option (List Nat)) :
    (∀ ds ∈ fraction, IsDigits ds) → FractionWritten fraction (match fraction with
      | none => []
      | some ds => '.' :: ds.map Nat.digitChar) := by
  intro h
  split
  · exact .absent
  · next ds => exact .present (h ds rfl)

theorem exponentWritten_printed (exponent : Option Int) :
    ExponentWritten exponent (match exponent with
      | none => []
      | some (.ofNat e) => 'e' :: Nat.toDigits 10 e
      | some (.negSucc e) => 'e' :: '-' :: Nat.toDigits 10 (e + 1)) := by
  split
  · exact .absent
  · next e =>
    obtain ⟨ds, hds, hdigits, rfl, -⟩ := toDigits_eq_map e
    have hwritten := ExponentWritten.natural (.inl rfl) (.inl rfl) hdigits
    rwa [List.nil_append, ← hds] at hwritten
  · next e =>
    obtain ⟨ds, hds, hdigits, hvalue, -⟩ := toDigits_eq_map (e + 1)
    have hwritten := ExponentWritten.negative (.inl rfl) hdigits
    rwa [hvalue, ← hds] at hwritten

theorem numeralWritten_numeral {n : Numeral} (h : ∀ ds ∈ n.fraction, IsDigits ds) :
    NumeralWritten n (numeral n) := by
  obtain ⟨negative, whole, fraction, exponent⟩ := n
  obtain ⟨ds, hds, hdigits, rfl, hzero⟩ := toDigits_eq_map whole
  have hwritten := NumeralWritten.intro negative hdigits hzero
    (fractionWritten_printed fraction h) (exponentWritten_printed exponent)
  rwa [← hds, ← List.append_assoc, ← List.append_assoc] at hwritten

/-! ### Trees -/

theorem lexeme_quoted {s : Text} (h : s ≠ none) : Lexeme (.string s) (quoted s) := by
  cases s with
  | none => exact absurd rfl h
  | some s => exact .string (charsWritten_escaped s.toList)

mutual

/-- The tokens of a tree are written in its text, whatever its level of indentation. -/
theorem spelled_prettyChars (level : Nat) : ∀ t : Tree, (∀ u ∈ t.tokens, u.Printable) →
    Spelled t.tokens (prettyChars level t)
  | .null, _ => .lexeme .null
  | .bool true, _ => .lexeme .true
  | .bool false, _ => .lexeme .false
  | .number n, h => by
    rw [Tree.tokens] at h ⊢
    exact .lexeme (.number (numeralWritten_numeral (h (.number n) (by simp))))
  | .string s, h => by
    rw [Tree.tokens] at h ⊢
    exact .lexeme (lexeme_quoted (h (.string s) (by simp)))
  | .array [], _ => by
    rw [Tree.tokens, prettyChars]
    exact .token .openBracket (.lexeme .closeBracket)
  | .array (t :: us), h => by
    simp only [Tree.tokens, List.forall_mem_cons, List.forall_mem_append] at h
    simp only [Tree.tokens, prettyChars, List.cons_append, List.append_assoc]
    refine .token .openBracket (.newline _ (.append (spelled_prettyChars _ t h.2.1) ?_))
    refine .append (spelled_prettyItems _ us h.2.2.1) ?_
    exact .newline _ (.lexeme .closeBracket)
  | .object [], _ => by
    rw [Tree.tokens, prettyChars]
    exact .token .openBrace (.lexeme .closeBrace)
  | .object ((k, t) :: ms), h => by
    simp only [Tree.tokens, List.forall_mem_cons, List.forall_mem_append] at h
    simp only [Tree.tokens, prettyChars, List.cons_append, List.append_assoc, List.nil_append]
    refine .token .openBrace (.newline _ (.token (lexeme_quoted h.2.1) ?_))
    refine .token .colon (.blank (by simp) (.append (spelled_prettyChars _ t h.2.2.2.1) ?_))
    refine .append (spelled_prettyMembers _ ms h.2.2.2.2.1) ?_
    exact .newline _ (.lexeme .closeBrace)

theorem spelled_prettyItems (level : Nat) : ∀ us : List Tree,
    (∀ u ∈ Tree.itemTokens us, u.Printable) → Spelled (Tree.itemTokens us) (prettyItems level us)
  | [], _ => .nil
  | t :: us, h => by
    simp only [Tree.itemTokens, List.forall_mem_cons, List.forall_mem_append] at h
    simp only [Tree.itemTokens, prettyItems, List.cons_append, List.append_assoc]
    refine .token .comma (.newline _ (.append (spelled_prettyChars _ t h.2.1) ?_))
    exact spelled_prettyItems _ us h.2.2

theorem spelled_prettyMembers (level : Nat) : ∀ ms : List (Text × Tree),
    (∀ u ∈ Tree.memberTokens ms, u.Printable) →
      Spelled (Tree.memberTokens ms) (prettyMembers level ms)
  | [], _ => .nil
  | (k, t) :: ms, h => by
    simp only [Tree.memberTokens, List.forall_mem_cons, List.forall_mem_append] at h
    simp only [Tree.memberTokens, prettyMembers, List.cons_append, List.append_assoc,
      List.nil_append]
    refine .token .comma (.newline _ (.token (lexeme_quoted h.2.1) ?_))
    refine .token .colon (.blank (by simp) (.append (spelled_prettyChars _ t h.2.2.2.1) ?_))
    exact spelled_prettyMembers _ ms h.2.2.2.2

end

end Printer

namespace Tree

/-- Trees that have a text of their own. -/
def Printable (t : Tree) : Prop := ∀ u ∈ t.tokens, u.Printable

/-- The tokens of a tree are written in its text. -/
theorem spelled_pretty {t : Tree} (h : t.Printable) : Spelled t.tokens t.pretty.toList := by
  rw [pretty, String.toList_ofList]
  exact Printer.spelled_prettyChars 0 t h

theorem printable_null : null.Printable := by
  simp [Printable, tokens, Token.Printable]

theorem printable_nat (n : Nat) : (nat n).Printable := by
  simp [Printable, nat, tokens, Token.Printable, Numeral.ofNat]

theorem printable_text (s : String) : (text s).Printable := by
  simp [Printable, text, tokens, Token.Printable]

theorem printable_itemTokens {ts : List Tree} (h : ∀ t ∈ ts, t.Printable) :
    ∀ u ∈ itemTokens ts, u.Printable := by
  induction ts with
  | nil => simp [itemTokens]
  | cons t ts ih =>
    obtain ⟨ht, hts⟩ := List.forall_mem_cons.mp h
    rw [itemTokens, List.forall_mem_cons, List.forall_mem_append]
    exact ⟨trivial, ht, ih hts⟩

theorem printable_array {ts : List Tree} (h : ∀ t ∈ ts, t.Printable) : (array ts).Printable := by
  cases ts with
  | nil => simp [Printable, tokens, Token.Printable]
  | cons t ts =>
    obtain ⟨ht, hts⟩ := List.forall_mem_cons.mp h
    rw [Printable, tokens, List.forall_mem_cons, List.forall_mem_append, List.forall_mem_append]
    exact ⟨trivial, ht, printable_itemTokens hts, by simp [Token.Printable]⟩

theorem printable_memberTokens {fs : List (String × Tree)} (h : ∀ f ∈ fs, f.2.Printable) :
    ∀ u ∈ memberTokens (fs.map fun (k, t) => (some k, t)), u.Printable := by
  induction fs with
  | nil => simp [memberTokens]
  | cons f fs ih =>
    obtain ⟨hf, hfs⟩ := List.forall_mem_cons.mp h
    simp only [List.map_cons, memberTokens, List.forall_mem_cons, List.forall_mem_append]
    exact ⟨trivial, by simp [Token.Printable], trivial, hf, ih hfs⟩

theorem printable_record {fs : List (String × Tree)} (h : ∀ f ∈ fs, f.2.Printable) :
    (record fs).Printable := by
  cases fs with
  | nil => simp [Printable, record, tokens, Token.Printable]
  | cons f fs =>
    obtain ⟨hf, hfs⟩ := List.forall_mem_cons.mp h
    simp only [Printable, record, List.map_cons, tokens, List.forall_mem_cons,
      List.forall_mem_append]
    exact ⟨trivial, by simp [Token.Printable], trivial, hf, printable_memberTokens hfs, trivial,
      by simp⟩

end Tree

end ReportQuorum.Json
