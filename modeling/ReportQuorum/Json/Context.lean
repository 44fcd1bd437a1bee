import ReportQuorum.Json.Token

/-!
# Reading a JSON text

The tokens of a text are read from left to right by a machine that keeps a stack of the arrays and
objects still open. A completed value is handed to the innermost of them, or is the whole text if
none is open. Each step takes a token, so the reading ends with the tokens.

## Main definitions

* `Json.Context`: an array or object that is still open
* `Json.Tree.ofTokens?`: the tree that a sequence of tokens spells
* `Json.Tree.parse?`: the tree that a text spells
-/

namespace ReportQuorum.Json

/-- An array or object that is still open. -/
inductive Context where
  /-- An array with the items before the one being read, last first. -/
  | items (before : List Tree)
  /-- An object with the members before the one being read, last first, and the key of that one. -/
  | members (before : List (Text × Tree)) (key : Text)

mutual

/-- Reads a value and all that follows it. -/
def readValue : List Token → List Context → Option Tree
  | .null :: ts, ctx => readRest ts ctx .null
  | .bool b :: ts, ctx => readRest ts ctx (.bool b)
  | .number n :: ts, ctx => readRest ts ctx (.number n)
  | .string s :: ts, ctx => readRest ts ctx (.string s)
  | .openBracket :: .closeBracket :: ts, ctx => readRest ts ctx (.array [])
  | .openBracket :: ts, ctx => readValue ts (.items [] :: ctx)
  | .openBrace :: .closeBrace :: ts, ctx => readRest ts ctx (.object [])
  | .openBrace :: .string k :: .colon :: ts, ctx => readValue ts (.members [] k :: ctx)
  | _, _ => none

/-- Reads what follows a value, given the value. -/
def readRest : List Token → List Context → Tree → Option Tree
  | [], [], t => some t
  | .comma :: ts, .items before :: ctx, t => readValue ts (.items (t :: before) :: ctx)
  | .closeBracket :: ts, .items before :: ctx, t =>
    readRest ts ctx (.array (t :: before).reverse)
  | .comma :: .string k' :: .colon :: ts, .members before k :: ctx, t =>
    readValue ts (.members ((k, t) :: before) k' :: ctx)
  | .closeBrace :: ts, .members before k :: ctx, t =>
    readRest ts ctx (.object ((k, t) :: before).reverse)
  | _, _, _ => none

end

namespace Tree

/-- The tree that a sequence of tokens spells. -/
def ofTokens? (ts : List Token) : Option Tree := readValue ts []

/-- The tree that a text spells. -/
def parse? (s : String) : Option Tree := (Token.scan s.toList).bind ofTokens?

end Tree

end ReportQuorum.Json
