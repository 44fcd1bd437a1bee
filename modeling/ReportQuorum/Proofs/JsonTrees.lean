import ReportQuorum.Json.Context
import ReportQuorum.Proofs.JsonTokens

/-!
# The tree that a text spells

Every tree has one sequence of tokens, in which its items and members stand in their order between
brackets and commas. The machine that reads tokens finds the tree whose sequence they are: what it
has passed over together with what is left are always the tokens of the tree that it will find.
Hence a text is read as a tree exactly if the tokens of the tree are written in it.

## Main definitions

* `Json.Tree.tokens`: the tokens of a tree
* `Json.Context.allPassed`: the tokens that the machine has passed over

## Main results

* `Json.Tree.ofTokens?_eq_some`: tokens are read as the tree whose tokens they are, and as no other
* `Json.Tree.parse?_of_spelled`, `Json.Tree.spelled_of_parse?`: a text is read as the tree whose
  tokens are written in it
-/

namespace ReportQuorum.Json

namespace Tree

mutual

/-- The tokens of a tree. -/
def tokens : Tree → List Token
  | .null => [.null]
  | .bool b => [.bool b]
  | .number n => [.number n]
  | .string s => [.string s]
  | .array [] => [.openBracket, .closeBracket]
  | .array (t :: ts) => .openBracket :: (tokens t ++ (itemTokens ts ++ [.closeBracket]))
  | .object [] => [.openBrace, .closeBrace]
  | .object ((k, t) :: ms) =>
    .openBrace :: .string k :: .colon :: (tokens t ++ (memberTokens ms ++ [.closeBrace]))

/-- The tokens of the items after the first, each after a comma. -/
def itemTokens : List Tree → List Token
  | [] => []
  | t :: ts => .comma :: (tokens t ++ itemTokens ts)

/-- The tokens of the members after the first, each after a comma. -/
def memberTokens : List (Text × Tree) → List Token
  | [] => []
  | (k, t) :: ms => .comma :: .string k :: .colon :: (tokens t ++ memberTokens ms)

end

/-! ### Reading the tokens of a tree -/

/-- No tree begins with a closing bracket, so an opening one before it opens an array of items. -/
theorem readValue_openBracket (t : Tree) (ts : List Token) (ctx : List Context) :
    readValue (.openBracket :: (t.tokens ++ ts)) ctx =
      readValue (t.tokens ++ ts) (.items [] :: ctx) := by
  -- Only the first token of the tree matters.
  have key (u : Token) (us : List Token) (hu : u ≠ .closeBracket) :
      readValue (.openBracket :: u :: us) ctx = readValue (u :: us) (.items [] :: ctx) := by
    rw [readValue]
    rintro _ ⟨⟩
    exact hu rfl
  unfold tokens
  split <;> exact key _ _ (by simp)

mutual

/-- The tokens of a tree are read as the tree. -/
theorem readValue_tokens : ∀ (t : Tree) (ts : List Token) (ctx : List Context),
    readValue (t.tokens ++ ts) ctx = readRest ts ctx t
  | .null, _, _ | .bool _, _, _ | .number _, _, _ | .string _, _, _ => by
    rw [tokens, List.singleton_append, readValue]
  | .array [], _, _ => by rw [tokens, List.cons_append, List.singleton_append, readValue]
  | .array (t :: us), ts, ctx => by
    rw [tokens, List.cons_append, List.append_assoc, readValue_openBracket, readValue_tokens,
      List.append_assoc, List.singleton_append, readRest_itemTokens]
    rfl
  | .object [], _, _ => by rw [tokens, List.cons_append, List.singleton_append, readValue]
  | .object ((k, t) :: ms), ts, ctx => by
    simp only [tokens, List.cons_append, List.append_assoc]
    rw [readValue, readValue_tokens, List.nil_append, readRest_memberTokens]
    rfl

/-- The items after one that was read are put behind it. -/
theorem readRest_itemTokens : ∀ (us : List Tree) (ts : List Token) (before : List Tree)
    (ctx : List Context) (t : Tree),
    readRest (itemTokens us ++ .closeBracket :: ts) (.items before :: ctx) t =
      readRest ts ctx (.array (before.reverse ++ t :: us))
  | [], ts, before, ctx, t => by
    rw [itemTokens, List.nil_append, readRest, List.reverse_cons]
  | u :: us, ts, before, ctx, t => by
    rw [itemTokens, List.cons_append, List.append_assoc, readRest, readValue_tokens,
      readRest_itemTokens, List.reverse_cons, List.append_assoc]
    rfl

/-- The members after one that was read are put behind it. -/
theorem readRest_memberTokens : ∀ (ms : List (Text × Tree)) (ts : List Token)
    (before : List (Text × Tree)) (k : Text) (ctx : List Context) (t : Tree),
    readRest (memberTokens ms ++ .closeBrace :: ts) (.members before k :: ctx) t =
      readRest ts ctx (.object (before.reverse ++ (k, t) :: ms))
  | [], ts, before, k, ctx, t => by
    rw [memberTokens, List.nil_append, readRest, List.reverse_cons]
  | (l, u) :: ms, ts, before, k, ctx, t => by
    simp only [memberTokens, List.cons_append, List.append_assoc]
    rw [readRest, readValue_tokens, readRest_memberTokens, List.reverse_cons, List.append_assoc]
    rfl

end

end Tree

/-! ### The tokens passed over -/

namespace Context

/-- What opens an array and the items before the one being read, each with a comma after it. -/
def passedItems : List Tree → List Token
  | [] => [.openBracket]
  | t :: before => passedItems before ++ (t.tokens ++ [.comma])

/-- What opens an object and the members before the one being read, each with a comma after it. -/
def passedMembers : List (Text × Tree) → List Token
  | [] => [.openBrace]
  | (k, t) :: before => passedMembers before ++ .string k :: .colon :: (t.tokens ++ [.comma])

/-- The tokens that were passed over since an array or object was opened. -/
def passed : Context → List Token
  | .items before => passedItems before
  | .members before k => passedMembers before ++ [.string k, .colon]

/-- The tokens that were passed over. The innermost array or object was opened last. -/
def allPassed : List Context → List Token
  | [] => []
  | c :: ctx => allPassed ctx ++ c.passed

end Context

namespace Tree

open Context

/-- The tokens of an array, cut before one of its items. -/
theorem tokens_array (before : List Tree) (t : Tree) (us : List Tree) :
    (array (before.reverse ++ t :: us)).tokens =
      passedItems before ++ (t.tokens ++ (itemTokens us ++ [.closeBracket])) := by
  induction before generalizing t us with
  | nil => simp [tokens, passedItems]
  | cons b before ih =>
    rw [List.reverse_cons, List.append_assoc, List.singleton_append, ih]
    simp [passedItems, itemTokens]

/-- The tokens of an object, cut before one of its members. -/
theorem tokens_object (before : List (Text × Tree)) (k : Text) (t : Tree)
    (ms : List (Text × Tree)) :
    (object (before.reverse ++ (k, t) :: ms)).tokens =
      passedMembers before ++
        .string k :: .colon :: (t.tokens ++ (memberTokens ms ++ [.closeBrace])) := by
  induction before generalizing k t ms with
  | nil => simp [tokens, passedMembers]
  | cons b before ih =>
    obtain ⟨l, u⟩ := b
    rw [List.reverse_cons, List.append_assoc, List.singleton_append, ih]
    simp [passedMembers, memberTokens]

mutual

/-- What was passed over and what is left are the tokens of the tree that is found. -/
theorem tokens_of_readValue {ts : List Token} {ctx : List Context} {r : Tree}
    (h : readValue ts ctx = some r) : r.tokens = allPassed ctx ++ ts := by
  unfold readValue at h
  split at h
  -- A value without parts is done with its token, and an empty one with its two brackets.
  case h_1 | h_2 | h_3 | h_4 => rw [tokens_of_readRest h, tokens, List.singleton_append]
  case h_5 | h_7 => rw [tokens_of_readRest h, tokens, List.cons_append, List.singleton_append]
  -- Of what is opened nothing has been read but what opens it.
  case h_6 =>
    rw [tokens_of_readValue h]
    simp [allPassed, passed, passedItems]
  case h_8 =>
    rw [tokens_of_readValue h]
    simp [allPassed, passed, passedMembers]
  case h_9 => cases h
termination_by ts.length

/-- The same when a value has just been read. -/
theorem tokens_of_readRest {ts : List Token} {ctx : List Context} {t r : Tree}
    (h : readRest ts ctx t = some r) : r.tokens = allPassed ctx ++ (t.tokens ++ ts) := by
  unfold readRest at h
  split at h
  case h_1 =>
    cases h
    simp [allPassed]
  -- After a comma the value is one of those that were passed over.
  case h_2 =>
    rw [tokens_of_readValue h]
    simp [allPassed, passed, passedItems]
  case h_4 =>
    rw [tokens_of_readValue h]
    simp [allPassed, passed, passedMembers]
  -- After a closing bracket all of them are parts of one value.
  case h_3 =>
    rw [tokens_of_readRest h, List.reverse_cons, tokens_array]
    simp [allPassed, passed, itemTokens]
  case h_5 =>
    rw [tokens_of_readRest h, List.reverse_cons, tokens_object]
    simp [allPassed, passed, memberTokens]
  case h_6 => cases h
termination_by ts.length

end

/-- Tokens are read as the tree whose tokens they are, and as no other. -/
theorem ofTokens?_eq_some {ts : List Token} {t : Tree} : ofTokens? ts = some t ↔ ts = t.tokens := by
  constructor
  · intro h
    exact (tokens_of_readValue h).symm
  · rintro rfl
    rw [ofTokens?, ← List.append_nil t.tokens, readValue_tokens, readRest]

/-! ### Reading a text -/

/-- Tokens that may follow a number. -/
def FollowsNumber (ts : List Token) : Prop :=
  Token.Separated ts ∧ ∀ t ∈ ts.head?, ¬ t.IsNumber

theorem separated_cons {t : Token} {ts : List Token} (ht : ¬ t.IsNumber)
    (h : Token.Separated ts) : Token.Separated (t :: ts) :=
  List.isChain_cons.mpr ⟨fun _ _ both => ht both.1, h⟩

theorem FollowsNumber.cons {t : Token} {ts : List Token} (ht : ¬ t.IsNumber)
    (h : Token.Separated ts) : FollowsNumber (t :: ts) := by
  refine ⟨separated_cons ht h, ?_⟩
  rintro _ ⟨⟩
  exact ht

mutual

/-- No two numbers stand side by side in a tree, nor at its end. -/
theorem separated_tokens : ∀ (t : Tree) {ts : List Token}, FollowsNumber ts →
    Token.Separated (t.tokens ++ ts)
  | .null, _, h | .bool _, _, h | .string _, _, h => by
    rw [tokens]
    exact separated_cons id h.1
  | .number _, _, h => by
    rw [tokens]
    exact List.isChain_cons.mpr ⟨fun u hu both => h.2 u hu both.2, h.1⟩
  | .array [], _, h | .object [], _, h => by
    rw [tokens]
    exact separated_cons id (separated_cons id h.1)
  | .array (t :: us), ts, h => by
    simp only [tokens, List.cons_append, List.append_assoc, List.nil_append]
    have hitems : FollowsNumber (itemTokens us ++ .closeBracket :: ts) :=
      followsNumber_itemTokens us (.cons id h.1)
    exact separated_cons id (separated_tokens t hitems)
  | .object ((_, t) :: ms), ts, h => by
    simp only [tokens, List.cons_append, List.append_assoc, List.nil_append]
    have hmembers : FollowsNumber (memberTokens ms ++ .closeBrace :: ts) :=
      followsNumber_memberTokens ms (.cons id h.1)
    have htree := separated_tokens t hmembers
    exact separated_cons id (separated_cons id (separated_cons id htree))

theorem followsNumber_itemTokens : ∀ (us : List Tree) {ts : List Token}, FollowsNumber ts →
    FollowsNumber (itemTokens us ++ ts)
  | [], _, h => h
  | t :: us, _, h => by
    rw [itemTokens, List.cons_append, List.append_assoc]
    exact .cons id (separated_tokens t (followsNumber_itemTokens us h))

theorem followsNumber_memberTokens : ∀ (ms : List (Text × Tree)) {ts : List Token},
    FollowsNumber ts → FollowsNumber (memberTokens ms ++ ts)
  | [], _, h => h
  | (_, t) :: ms, _, h => by
    simp only [memberTokens, List.cons_append, List.append_assoc]
    have htree := separated_tokens t (followsNumber_memberTokens ms h)
    exact .cons id (separated_cons id (separated_cons id htree))

end

/-- A text in which the tokens of a tree are written is read as the tree. -/
theorem parse?_of_spelled {s : String} {t : Tree} (h : Spelled t.tokens s.toList) :
    parse? s = some t := by
  have hseparated : Token.Separated t.tokens := by
    have hend : FollowsNumber [] := ⟨List.isChain_nil, by simp⟩
    have := separated_tokens t hend
    rwa [List.append_nil] at this
  rw [parse?, Token.scan_of_spelled h hseparated, Option.bind_some, ofTokens?_eq_some]

/-- The tokens of the tree that is read are written in the text, unless a string in it names no
text. -/
theorem spelled_of_parse? {s : String} {t : Tree} (h : parse? s = some t)
    (htexts : .string none ∉ t.tokens) : Spelled t.tokens s.toList := by
  obtain ⟨ts, hscan, htree⟩ := Option.bind_eq_some_iff.mp h
  obtain rfl := ofTokens?_eq_some.mp htree
  exact Token.spelled_of_scan hscan htexts

end Tree

end ReportQuorum.Json
