/-!
MessagePack values. What can be written in several ways is one value as far as readers cannot tell
the ways apart: the width of a number does not count, its sign convention does, and texts are kept
as bytes, because what is written as a text need not be one.
-/

namespace EntityForge

/-- A MessagePack value. -/
inductive MessagePack where
  | nil
  /-- A number in one of the unsigned forms. -/
  | natural (n : Nat)
  /-- A number in one of the signed forms. -/
  | signed (n : Int)
  | string (bytes : List UInt8)
  | binary (bytes : List UInt8)
  | array (items : List MessagePack)
  | map (entries : List (MessagePack × MessagePack))
  /-- A boolean, a float or an extension, as written; no data is read from it. -/
  | verbatim (bytes : List UInt8)
deriving Repr, Inhabited

namespace MessagePack

/-- The number of digit sequences of a width, to the base 256. -/
def sequences : Nat → Nat
  | 0 => 1
  | width + 1 => 256 * sequences width

/-- The bytes of a text. -/
def utf8 (text : String) : List UInt8 := text.toUTF8.data.toList

/-- The text of a string. -/
def text (text : String) : MessagePack := .string (utf8 text)

/-- A number that fits an unsigned 32-bit word, in any form. -/
def word? : MessagePack → Option Nat
  | natural n => if n < 0x100000000 then some n else none
  | signed n => if 0 ≤ n ∧ n < 0x100000000 then some n.toNat else none
  | _ => none

/-- The bytes of a string or of binary data. -/
def bytes? : MessagePack → Option (List UInt8)
  | string bytes | binary bytes => some bytes
  | _ => none

/-- The text of a string, or of binary data that is one. -/
def text? (value : MessagePack) : Option String := do
  String.fromUTF8? ⟨(← value.bytes?).toArray⟩

/-- The items of an array. -/
def items? : MessagePack → Option (List MessagePack)
  | array items => some items
  | _ => none

end MessagePack

end EntityForge
