import EntityForge.MessagePack.Basic

/-!
Reading MessagePack values. Any form of a value is read, not only the shortest one. Reading takes
the bytes of one value from the front and leaves the rest; it fails if the bytes end early, at the
one byte that starts no value, and where arrays and maps are nested too deeply.
-/

namespace EntityForge.MessagePack

/-- Reads from the front of a list of bytes. -/
abbrev Reader (α : Type) := StateT (List UInt8) Option α

/-- The next `count` bytes. -/
def take (count : Nat) : Reader (List UInt8) := fun bytes =>
  if count ≤ bytes.length then some (bytes.splitAt count) else none

/-- The number that digits to the base 256 write, most significant first. -/
def ofDigits (digits : List UInt8) : Nat := digits.foldl (fun n digit => n * 256 + digit.toNat) 0

/-- An unsigned number of the given width. -/
def takeNatural (width : Nat) : Reader Nat := ofDigits <$> take width

/-- A signed number of the given width, whose first half of the digit sequences is not negative. -/
def takeSigned (width : Nat) : Reader Int := do
  let n ← takeNatural width
  return if 2 * n < sequences width then (n : Int) else (n : Int) - sequences width

/-- Reads a number of things, one after the other. -/
def repeated {α : Type} (item : Reader α) : Nat → Reader (List α)
  | 0 => return []
  | count + 1 => return (← item) :: (← repeated item count)

/-- An array of a length, if nesting goes on. -/
def takeArray (inner : Option (Reader MessagePack)) (length : Nat) : Reader MessagePack :=
  match inner with
  | none => failure
  | some value => .array <$> repeated value length

/-- A map with a number of entries, if nesting goes on. -/
def takeMap (inner : Option (Reader MessagePack)) (length : Nat) : Reader MessagePack :=
  match inner with
  | none => failure
  | some value => .map <$> repeated (do return (← value, ← value)) length

/-- Binary data or the bytes of a string after a length of the given width. -/
def takeSized (width : Nat) : Reader (List UInt8) := do take (← takeNatural width)

/-- The rest of an extension after a length of the given width; a byte for its kind precedes the
data. -/
def takeExtension (marker : UInt8) (width : Nat) : Reader MessagePack := do
  let length ← take width
  let content ← take (ofDigits length + 1)
  return .verbatim (marker :: length ++ content)

/-- The rest of a value of a fixed length that is kept as written. -/
def takeVerbatim (marker : UInt8) (length : Nat) : Reader MessagePack := do
  return .verbatim (marker :: (← take length))

/-- The rest of a value after its first byte; `inner` reads values inside arrays and maps. -/
def takeAfter (inner : Option (Reader MessagePack)) (marker : UInt8) : Reader MessagePack :=
  let n := marker.toNat
  if n < 0x80 then return .natural n
  else if n < 0x90 then takeMap inner (n - 0x80)
  else if n < 0xa0 then takeArray inner (n - 0x90)
  else if n < 0xc0 then .string <$> take (n - 0xa0)
  else if 0xe0 ≤ n then return .signed ((n : Int) - 0x100)
  else match n with
    | 0xc0 => return .nil
    | 0xc2 | 0xc3 => takeVerbatim marker 0
    | 0xc4 => .binary <$> takeSized 1
    | 0xc5 => .binary <$> takeSized 2
    | 0xc6 => .binary <$> takeSized 4
    | 0xc7 => takeExtension marker 1
    | 0xc8 => takeExtension marker 2
    | 0xc9 => takeExtension marker 4
    | 0xca => takeVerbatim marker 4
    | 0xcb => takeVerbatim marker 8
    | 0xcc => .natural <$> takeNatural 1
    | 0xcd => .natural <$> takeNatural 2
    | 0xce => .natural <$> takeNatural 4
    | 0xcf => .natural <$> takeNatural 8
    | 0xd0 => .signed <$> takeSigned 1
    | 0xd1 => .signed <$> takeSigned 2
    | 0xd2 => .signed <$> takeSigned 4
    | 0xd3 => .signed <$> takeSigned 8
    | 0xd4 => takeVerbatim marker 2
    | 0xd5 => takeVerbatim marker 3
    | 0xd6 => takeVerbatim marker 5
    | 0xd7 => takeVerbatim marker 9
    | 0xd8 => takeVerbatim marker 17
    | 0xd9 => .string <$> takeSized 1
    | 0xda => .string <$> takeSized 2
    | 0xdb => .string <$> takeSized 4
    | 0xdc => do takeArray inner (← takeNatural 2)
    | 0xdd => do takeArray inner (← takeNatural 4)
    | 0xde => do takeMap inner (← takeNatural 2)
    | 0xdf => do takeMap inner (← takeNatural 4)
    | _ => failure

/-- A value in which arrays and maps are nested at most `depth` times. -/
def takeValue (depth : Nat) : Reader MessagePack := fun
  | [] => none
  | marker :: rest =>
    takeAfter (match depth with | 0 => none | depth + 1 => some (takeValue depth)) marker rest

/-- How often arrays and maps may be nested. -/
def maxDepth : Nat := 1023

/-- The value at the front of a list of bytes; what follows it does not count. -/
def decode (bytes : List UInt8) : Option MessagePack := (takeValue maxDepth bytes).map Prod.fst

end EntityForge.MessagePack
