import EntityForge.Text.Tables

/-!
The quoted form of a text in messages: double quotes around it, the quote, the backslash and the
common control characters by a letter, and by its code point every other character that is not
seen by itself: one without a visible form, or a mark that would fuse with its neighbour.
-/

namespace EntityForge.Text

/-- A character with a visible form of its own. -/
def isVisible (c : Char) : Bool :=
  if c.toNat < 0x80 then 0x20 ≤ c.toNat && c.toNat < 0x7F
  else !inTable Tables.combining c.toNat && !inTable Tables.invisible c.toNat

/-- The code point of a character in braces, in lower case hexadecimal digits. -/
def codePointEscape (c : Char) : List Char :=
  ['\\', 'u', '{'] ++ Nat.toDigits 16 c.toNat ++ ['}']

/-- The quoted form of one character. -/
def quotedChar (c : Char) : List Char :=
  if c = '\x00' then ['\\', '0']
  else if c = '\t' then ['\\', 't']
  else if c = '\r' then ['\\', 'r']
  else if c = '\n' then ['\\', 'n']
  else if c = '"' then ['\\', '"']
  else if c = '\\' then ['\\', '\\']
  else if isVisible c then [c]
  else codePointEscape c

/-- The quoted form of a text. -/
def quoted (text : String) : String :=
  String.ofList ('"' :: text.toList.flatMap quotedChar ++ ['"'])

end EntityForge.Text
