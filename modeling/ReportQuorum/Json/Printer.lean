import ReportQuorum.Json.Tree

/-!
# Writing JSON texts

A tree is written in one of two layouts: over several lines with an indentation of two blanks for
each level, or on one line without blanks. Both escape the same characters.

## Main definitions

* `Json.Printer.quoted`: a string with its escapes
* `Json.Tree.pretty`: the layout over several lines
* `Json.Tree.compact`: the layout on one line
-/

namespace ReportQuorum.Json

namespace Printer

/-- The lower-case hexadecimal digit of a number below sixteen. -/
def hexDigit (n : Nat) : Char := Nat.digitChar n

/-- The written form of a character in a string: control characters and the two characters that
strings need themselves are escaped. -/
def escaped (c : Char) : List Char :=
  if c = '"' then ['\\', '"']
  else if c = '\\' then ['\\', '\\']
  else if c = '\x08' then ['\\', 'b']
  else if c = '\t' then ['\\', 't']
  else if c = '\n' then ['\\', 'n']
  else if c = '\x0c' then ['\\', 'f']
  else if c = '\r' then ['\\', 'r']
  else if c.toNat < 0x20 then
    ['\\', 'u', '0', '0', hexDigit (c.toNat / 16), hexDigit (c.toNat % 16)]
  else [c]

/-- A string between quotes. One without a text is written as half of a surrogate pair. -/
def quoted : Text → List Char
  | some s => '"' :: s.toList.flatMap escaped ++ ['"']
  | none => "\"\\ud800\"".toList

/-- A number literal. -/
def numeral (n : Numeral) : List Char :=
  (if n.negative then ['-'] else []) ++ Nat.toDigits 10 n.whole ++
    (match n.fraction with
      | none => []
      | some ds => '.' :: ds.map Nat.digitChar) ++
    (match n.exponent with
      | none => []
      | some (.ofNat e) => 'e' :: Nat.toDigits 10 e
      | some (.negSucc e) => 'e' :: '-' :: Nat.toDigits 10 (e + 1))

/-- A new line and its indentation. -/
def newline (level : Nat) : List Char := '\n' :: List.replicate (2 * level) ' '

mutual

/-- A tree over several lines, itself at a level of indentation. -/
def prettyChars (level : Nat) : Tree → List Char
  | .null => ['n', 'u', 'l', 'l']
  | .bool true => ['t', 'r', 'u', 'e']
  | .bool false => ['f', 'a', 'l', 's', 'e']
  | .number n => numeral n
  | .string s => quoted s
  | .array [] => ['[', ']']
  | .array (t :: ts) =>
    '[' :: newline (level + 1) ++ prettyChars (level + 1) t ++ prettyItems (level + 1) ts ++
      newline level ++ [']']
  | .object [] => ['{', '}']
  | .object ((k, t) :: ms) =>
    '{' :: newline (level + 1) ++ quoted k ++ [':', ' '] ++ prettyChars (level + 1) t ++
      prettyMembers (level + 1) ms ++ newline level ++ ['}']

/-- The items after the first, each after a comma and on a line of its own. -/
def prettyItems (level : Nat) : List Tree → List Char
  | [] => []
  | t :: ts => ',' :: newline level ++ prettyChars level t ++ prettyItems level ts

/-- The members after the first, each after a comma and on a line of its own. -/
def prettyMembers (level : Nat) : List (Text × Tree) → List Char
  | [] => []
  | (k, t) :: ms =>
    ',' :: newline level ++ quoted k ++ [':', ' '] ++ prettyChars level t ++ prettyMembers level ms

end

mutual

/-- A tree on one line. -/
def compactChars : Tree → List Char
  | .null => ['n', 'u', 'l', 'l']
  | .bool true => ['t', 'r', 'u', 'e']
  | .bool false => ['f', 'a', 'l', 's', 'e']
  | .number n => numeral n
  | .string s => quoted s
  | .array [] => ['[', ']']
  | .array (t :: ts) => '[' :: compactChars t ++ compactItems ts ++ [']']
  | .object [] => ['{', '}']
  | .object ((k, t) :: ms) =>
    '{' :: quoted k ++ ':' :: compactChars t ++ compactMembers ms ++ ['}']

/-- The items after the first, each after a comma. -/
def compactItems : List Tree → List Char
  | [] => []
  | t :: ts => ',' :: compactChars t ++ compactItems ts

/-- The members after the first, each after a comma. -/
def compactMembers : List (Text × Tree) → List Char
  | [] => []
  | (k, t) :: ms => ',' :: quoted k ++ ':' :: compactChars t ++ compactMembers ms

end

end Printer

namespace Tree

/-- A tree written over several lines. -/
def pretty (t : Tree) : String := String.ofList (Printer.prettyChars 0 t)

/-- A tree written on one line. -/
def compact (t : Tree) : String := String.ofList (Printer.compactChars t)

end Tree

end ReportQuorum.Json
