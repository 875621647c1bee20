import EntityForge.MessagePack.Basic

/-!
The shortest form of a MessagePack value: numbers and lengths take the least width that holds them.
-/

namespace EntityForge.MessagePack

/-- The last `width` digits of a number to the base 256, most significant first. -/
def bigEndian : Nat → Nat → List UInt8
  | 0, _ => []
  | width + 1, n => UInt8.ofNat (n / sequences width) :: bigEndian width n

/-- A number in the shortest unsigned form. -/
def writeNatural (n : Nat) : List UInt8 :=
  if n < 0x80 then bigEndian 1 n
  else if n < 0x100 then 0xcc :: bigEndian 1 n
  else if n < 0x10000 then 0xcd :: bigEndian 2 n
  else if n < 0x100000000 then 0xce :: bigEndian 4 n
  else 0xcf :: bigEndian 8 n

/-- A number that is at least `-2 ^ (8 * width - 1)` as a digit sequence of that width. -/
def twosComplement (width : Nat) (n : Int) : List UInt8 :=
  bigEndian width (n % sequences width).toNat

/-- A number in the shortest signed form. -/
def writeSigned (n : Int) : List UInt8 :=
  if -0x20 ≤ n ∧ n < 0 then twosComplement 1 n
  else if -0x80 ≤ n ∧ n < 0x80 then 0xd0 :: twosComplement 1 n
  else if -0x8000 ≤ n ∧ n < 0x8000 then 0xd1 :: twosComplement 2 n
  else if -0x80000000 ≤ n ∧ n < 0x80000000 then 0xd2 :: twosComplement 4 n
  else 0xd3 :: twosComplement 8 n

/-- The header of a string of a length. -/
def stringHeader (length : Nat) : List UInt8 :=
  if length < 0x20 then bigEndian 1 (0xa0 + length)
  else if length < 0x100 then 0xd9 :: bigEndian 1 length
  else if length < 0x10000 then 0xda :: bigEndian 2 length
  else 0xdb :: bigEndian 4 length

/-- The header of binary data of a length. -/
def binaryHeader (length : Nat) : List UInt8 :=
  if length < 0x100 then 0xc4 :: bigEndian 1 length
  else if length < 0x10000 then 0xc5 :: bigEndian 2 length
  else 0xc6 :: bigEndian 4 length

/-- The header of an array of a length. -/
def arrayHeader (length : Nat) : List UInt8 :=
  if length < 0x10 then bigEndian 1 (0x90 + length)
  else if length < 0x10000 then 0xdc :: bigEndian 2 length
  else 0xdd :: bigEndian 4 length

/-- The header of a map with a number of entries. -/
def mapHeader (length : Nat) : List UInt8 :=
  if length < 0x10 then bigEndian 1 (0x80 + length)
  else if length < 0x10000 then 0xde :: bigEndian 2 length
  else 0xdf :: bigEndian 4 length

mutual

/-- The bytes of a value. -/
def encode : MessagePack → List UInt8
  | nil => [0xc0]
  | natural n => writeNatural n
  | signed n => writeSigned n
  | string bytes => stringHeader bytes.length ++ bytes
  | binary bytes => binaryHeader bytes.length ++ bytes
  | array items => arrayHeader items.length ++ encodeItems items
  | map entries => mapHeader entries.length ++ encodeEntries entries
  | verbatim bytes => bytes
termination_by structural value => value

/-- The bytes of values, one after the other. -/
def encodeItems : List MessagePack → List UInt8
  | [] => []
  | item :: rest => encode item ++ encodeItems rest
termination_by structural items => items

/-- The bytes of map entries, each key before its value. -/
def encodeEntries : List (MessagePack × MessagePack) → List UInt8
  | [] => []
  | entry :: rest => encodeEntry entry ++ encodeEntries rest
termination_by structural entries => entries

/-- The bytes of a map entry. -/
def encodeEntry : MessagePack × MessagePack → List UInt8
  | (key, value) => encode key ++ encode value
termination_by structural entry => entry

end

end EntityForge.MessagePack
