/-!
# Quoted characters

A message that complains about a byte shows it as the character with that number, between single
quotes. Characters that cannot be seen are escaped, so the message is always one printable line.

## Main definitions

* `Text.charLiteral`: a byte as a quoted, escaped character
-/

namespace ReportQuorum.Text

/-- The lower-case hexadecimal digits of a number, without leading zeros. -/
def hexDigits (n : Nat) : String := String.ofList (Nat.toDigits 16 n)

/-- Bytes whose character is a control character, a space other than U+0020, or the soft hyphen. -/
def isInvisible (b : UInt8) : Bool :=
  b < 0x20 || (0x7f ≤ b && b ≤ 0xa0) || b == 0xad

/-- What stands between the quotes for a byte: the character itself, a short escape for the usual
control characters and the two characters that quoting needs, or the number of the character. -/
def escapedByte (b : UInt8) : String :=
  if b == 0x00 then "\\0"
  else if b == 0x09 then "\\t"
  else if b == 0x0a then "\\n"
  else if b == 0x0d then "\\r"
  else if b == 0x27 then "\\'"
  else if b == 0x5c then "\\\\"
  else if isInvisible b then "\\u\x7b" ++ hexDigits b.toNat ++ "\x7d"
  else String.singleton (Char.ofNat b.toNat)

/-- A byte shown as the quoted character with its number. -/
def charLiteral (b : UInt8) : String := "'" ++ escapedByte b ++ "'"

end ReportQuorum.Text
