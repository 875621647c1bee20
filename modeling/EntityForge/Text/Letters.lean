import EntityForge.Text.Tables

/-!
Letters, digits and their two cases. Each predicate decides ASCII by comparison and every other
character by its table, so a statement about ASCII names never opens a table.
-/

namespace EntityForge.Text

/-- A letter, a mark counted as a letter, or a number. -/
def isWordChar (c : Char) : Bool :=
  if c.toNat < 0x80 then c.isAlphanum else inTable Tables.alphanumeric c.toNat

/-- An upper case character. -/
def isUpper (c : Char) : Bool :=
  if c.toNat < 0x80 then c.isUpper else inTable Tables.uppercase c.toNat

/-- A lower case character. -/
def isLower (c : Char) : Bool :=
  if c.toNat < 0x80 then c.isLower else inTable Tables.lowercase c.toNat

/-- The image of a character under a case map: a listed expansion, or a shift by the distance of the
span that holds the character, or the character itself. -/
def mapCase (shifts : List (Span × Int)) (expansions : List (Nat × List Nat)) (c : Char) :
    List Char :=
  match expansions.lookup c.toNat with
  | some codes => codes.map Char.ofNat
  | none =>
    match shifts.find? (fun s => s.1.contains c.toNat) with
    | some s => [Char.ofNat (c.toNat + s.2).toNat]
    | none => [c]

/-- The upper case form of a character; it may have several characters. -/
def toUpper (c : Char) : List Char :=
  if c.toNat < 0x80 then [c.toUpper] else mapCase Tables.toUpper Tables.toUpperLong c

/-- The lower case form of a character; it may have several characters. -/
def toLower (c : Char) : List Char :=
  if c.toNat < 0x80 then [c.toLower] else mapCase Tables.toLower Tables.toLowerLong c

end EntityForge.Text
