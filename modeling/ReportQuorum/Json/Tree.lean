/-!
# What a JSON text says

A JSON text is first taken for what it says, with nothing decided about it: number literals as they
are written, the members of an object in their order and with repetitions, and strings that name
no text because an escape in them is half of a surrogate pair. Readers of particular types decide
which of these they accept.

## Main definitions

* `Json.Numeral`: a number literal
* `Json.Tree`: the contents of a JSON text
* `Json.Tree.depth`: how deeply arrays and objects are nested
-/

namespace ReportQuorum.Json

/-- A number literal. -/
structure Numeral where
  /-- Whether it begins with a minus sign. -/
  negative : Bool
  /-- The digits before the point, as a number. -/
  whole : Nat
  /-- The digits after the point, if there is a point. -/
  fraction : Option (List Nat)
  /-- The exponent, if there is one. -/
  exponent : Option Int
deriving DecidableEq, Repr

/-- The literal of a natural number. -/
def Numeral.ofNat (n : Nat) : Numeral := ⟨false, n, none, none⟩

/-- The text of a string, or `none` if an escape in it is half of a surrogate pair. -/
abbrev Text := Option String

/-- The contents of a JSON text. -/
inductive Tree where
  | null
  | bool (b : Bool)
  | number (n : Numeral)
  | string (s : Text)
  | array (items : List Tree)
  | object (members : List (Text × Tree))

namespace Tree

/-- The tree of a text. -/
def text (s : String) : Tree := .string (some s)

/-- The tree of a natural number. -/
def nat (n : Nat) : Tree := .number (.ofNat n)

/-- The tree of an object whose keys are texts. -/
def record (members : List (String × Tree)) : Tree :=
  .object (members.map fun (k, t) => (some k, t))

mutual

/-- How deeply arrays and objects are nested. -/
def depth : Tree → Nat
  | .array items => depthItems items + 1
  | .object members => depthMembers members + 1
  | _ => 0

/-- The greatest depth among the items of an array. -/
def depthItems : List Tree → Nat
  | [] => 0
  | t :: ts => max (depth t) (depthItems ts)

/-- The greatest depth among the members of an object. -/
def depthMembers : List (Text × Tree) → Nat
  | [] => 0
  | (_, t) :: ms => max (depth t) (depthMembers ms)

end

end Tree

end ReportQuorum.Json
