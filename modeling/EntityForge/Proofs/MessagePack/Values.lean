import EntityForge.Proofs.MessagePack.Reading

/-!
Written values are read back. The first byte of a written value says how to read on, so each form
that the writer chooses is a case of `takeAfter`, and what follows the first byte is read as it was
written. `reads_encode` puts the cases together: whatever fits the widest forms, and is not
nested deeper than the reader goes, is taken from the front of any bytes that begin with it.
-/

namespace EntityForge.MessagePack

/-- Numbers and lengths fit the widest forms, and arrays and maps are nested at most `depth`
times. -/
inductive Fits : Nat → MessagePack → Prop where
  | nil {depth : Nat} : Fits depth .nil
  | natural {depth n : Nat} : n < 0x10000000000000000 → Fits depth (.natural n)
  | signed {depth : Nat} {n : Int} : -0x8000000000000000 ≤ n → n < 0x8000000000000000 →
      Fits depth (.signed n)
  | string {depth : Nat} {bytes : List UInt8} : bytes.length < 0x100000000 →
      Fits depth (.string bytes)
  | binary {depth : Nat} {bytes : List UInt8} : bytes.length < 0x100000000 →
      Fits depth (.binary bytes)
  | array {depth : Nat} {items : List MessagePack} : items.length < 0x100000000 →
      (∀ item ∈ items, Fits depth item) → Fits (depth + 1) (.array items)
  | map {depth : Nat} {entries : List (MessagePack × MessagePack)} :
      entries.length < 0x100000000 → (∀ entry ∈ entries, Fits depth entry.1) →
      (∀ entry ∈ entries, Fits depth entry.2) → Fits (depth + 1) (.map entries)

variable {depth n length : Nat} {inner : Option (Reader MessagePack)} {marker : UInt8}
  {written : List UInt8} {value : MessagePack}

/-! ### First bytes -/

/-- The reader of the values inside a value. -/
def inside : Nat → Option (Reader MessagePack)
  | 0 => none
  | depth + 1 => some (takeValue depth)

/-- A value is read as its first byte says. -/
theorem reads_of_marker (reads : Reads (takeAfter (inside depth) marker) written value) :
    Reads (takeValue depth) (marker :: written) value := by
  intro rest
  rw [← reads rest]
  cases depth <;> rfl

@[simp] theorem bigEndian_one (n : Nat) : bigEndian 1 n = [UInt8.ofNat n] := by
  simp [bigEndian, sequences]

theorem toNat_ofNat_of_lt (small : n < 0x100) : (UInt8.ofNat n).toNat = n := by
  rw [UInt8.toNat_ofNat']
  exact Nat.mod_eq_of_lt small

theorem takeAfter_natural (small : n < 0x80) :
    takeAfter inner (UInt8.ofNat n) = pure (.natural n) := by
  have same := toNat_ofNat_of_lt (n := n) (by omega)
  unfold takeAfter
  simp only [same]
  rw [if_pos small]

theorem takeAfter_map (small : length < 0x10) :
    takeAfter inner (UInt8.ofNat (0x80 + length)) = takeMap inner length := by
  have same := toNat_ofNat_of_lt (n := 0x80 + length) (by omega)
  unfold takeAfter
  simp only [same]
  rw [if_neg (by omega), if_pos (by omega), Nat.add_sub_cancel_left]

theorem takeAfter_array (small : length < 0x10) :
    takeAfter inner (UInt8.ofNat (0x90 + length)) = takeArray inner length := by
  have same := toNat_ofNat_of_lt (n := 0x90 + length) (by omega)
  unfold takeAfter
  simp only [same]
  rw [if_neg (by omega), if_neg (by omega), if_pos (by omega), Nat.add_sub_cancel_left]

theorem takeAfter_string (small : length < 0x20) :
    takeAfter inner (UInt8.ofNat (0xa0 + length)) = .string <$> take length := by
  have same := toNat_ofNat_of_lt (n := 0xa0 + length) (by omega)
  unfold takeAfter
  simp only [same]
  rw [if_neg (by omega), if_neg (by omega), if_neg (by omega), if_pos (by omega),
    Nat.add_sub_cancel_left]

/-- The last bytes stand for the small negative numbers. -/
theorem takeAfter_signed (inner : Option (Reader MessagePack)) {n : Int} (small : -0x20 ≤ n) (negative : n < 0) :
    takeAfter inner (UInt8.ofNat (n % 0x100).toNat) = pure (.signed n) := by
  have wrapped : n % 0x100 = n + 0x100 := by omega
  have same := toNat_ofNat_of_lt (n := (n % 0x100).toNat) (by omega)
  unfold takeAfter
  simp only [same]
  rw [if_neg (by omega), if_neg (by omega), if_neg (by omega), if_neg (by omega),
    if_pos (by omega)]
  exact congrArg (pure ∘ signed) (by omega)

/-! ### Forms -/

theorem reads_natural (fits : n < 0x10000000000000000) :
    Reads (takeValue depth) (writeNatural n) (.natural n) := by
  unfold writeNatural
  split
  · rename_i small
    rw [bigEndian_one]
    refine reads_of_marker ?_
    rw [takeAfter_natural small]
    exact reads_pure _
  split
  · rename_i fits
    exact reads_of_marker ((reads_takeNatural fits).map natural)
  split
  · rename_i fits
    exact reads_of_marker ((reads_takeNatural fits).map natural)
  split
  · rename_i fits
    exact reads_of_marker ((reads_takeNatural fits).map natural)
  · exact reads_of_marker ((reads_takeNatural fits).map natural)

theorem reads_signed {n : Int} (above : -0x8000000000000000 ≤ n) (below : n < 0x8000000000000000) :
    Reads (takeValue depth) (writeSigned n) (.signed n) := by
  unfold writeSigned
  split
  · rename_i small
    rw [twosComplement, bigEndian_one]
    refine reads_of_marker ?_
    have first := takeAfter_signed (inside depth) small.1 small.2
    change Reads (takeAfter _ (UInt8.ofNat (n % 0x100).toNat)) _ _
    rw [first]
    exact reads_pure _
  split
  · rename_i fits
    exact reads_of_marker ((reads_takeSigned (by simp only [sequences]; omega)
      (by simp only [sequences]; omega)).map signed)
  split
  · rename_i fits
    exact reads_of_marker ((reads_takeSigned (by simp only [sequences]; omega)
      (by simp only [sequences]; omega)).map signed)
  split
  · rename_i fits
    exact reads_of_marker ((reads_takeSigned (by simp only [sequences]; omega)
      (by simp only [sequences]; omega)).map signed)
  · exact reads_of_marker ((reads_takeSigned (by simp only [sequences]; omega)
      (by simp only [sequences]; omega)).map signed)

theorem reads_string {bytes : List UInt8} (fits : bytes.length < 0x100000000) :
    Reads (takeValue depth) (stringHeader bytes.length ++ bytes) (.string bytes) := by
  unfold stringHeader
  split
  · rename_i small
    rw [bigEndian_one]
    refine reads_of_marker ?_
    rw [takeAfter_string small]
    exact (reads_take bytes).map string
  split
  · rename_i fits
    exact reads_of_marker ((reads_takeSized fits).map string)
  split
  · rename_i fits
    exact reads_of_marker ((reads_takeSized fits).map string)
  · exact reads_of_marker ((reads_takeSized fits).map string)

theorem reads_binary {bytes : List UInt8} (fits : bytes.length < 0x100000000) :
    Reads (takeValue depth) (binaryHeader bytes.length ++ bytes) (.binary bytes) := by
  unfold binaryHeader
  split
  · rename_i fits
    exact reads_of_marker ((reads_takeSized fits).map binary)
  split
  · rename_i fits
    exact reads_of_marker ((reads_takeSized fits).map binary)
  · exact reads_of_marker ((reads_takeSized fits).map binary)

/-- What follows the header of an array is read as the items of one. -/
theorem reads_arrayHeader (fits : length < 0x100000000)
    (reads : Reads (takeArray (inside depth) length) written value) :
    Reads (takeValue depth) (arrayHeader length ++ written) value := by
  unfold arrayHeader
  split
  · rename_i small
    rw [bigEndian_one]
    refine reads_of_marker ?_
    rw [takeAfter_array small]
    exact reads
  split
  · rename_i fits
    exact reads_of_marker ((reads_takeNatural fits).bind reads)
  · exact reads_of_marker ((reads_takeNatural fits).bind reads)

/-- What follows the header of a map is read as the entries of one. -/
theorem reads_mapHeader (fits : length < 0x100000000)
    (reads : Reads (takeMap (inside depth) length) written value) :
    Reads (takeValue depth) (mapHeader length ++ written) value := by
  unfold mapHeader
  split
  · rename_i small
    rw [bigEndian_one]
    refine reads_of_marker ?_
    rw [takeAfter_map small]
    exact reads
  split
  · rename_i fits
    exact reads_of_marker ((reads_takeNatural fits).bind reads)
  · exact reads_of_marker ((reads_takeNatural fits).bind reads)

/-! ### Values -/

theorem encodeItems_eq_flatMap (items : List MessagePack) :
    encodeItems items = items.flatMap encode := by
  induction items with
  | nil => rfl
  | cons item rest ih => rw [encodeItems, ih, List.flatMap_cons]

theorem encodeEntries_eq_flatMap (entries : List (MessagePack × MessagePack)) :
    encodeEntries entries = entries.flatMap encodeEntry := by
  induction entries with
  | nil => rfl
  | cons entry rest ih => rw [encodeEntries, ih, List.flatMap_cons]

/-- **A written value that fits is read back, whatever follows it.** -/
theorem reads_encode (fits : Fits depth value) :
    Reads (takeValue depth) (encode value) value := by
  induction fits with
  | nil => exact reads_of_marker (reads_pure _)
  | natural fits => exact reads_natural fits
  | signed above below => exact reads_signed above below
  | string fits => exact reads_string fits
  | binary fits => exact reads_binary fits
  | array fits _ items =>
      refine reads_arrayHeader fits ?_
      rw [encodeItems_eq_flatMap]
      exact (reads_repeated items).map MessagePack.array
  | map fits _ _ keys values =>
      refine reads_mapHeader fits ?_
      rw [encodeEntries_eq_flatMap]
      refine (reads_repeated fun entry mem => ?_).map MessagePack.map
      rw [encodeEntry, ← List.append_nil (encode entry.2)]
      exact (keys entry mem).bind ((values entry mem).bind (reads_pure _))

end EntityForge.MessagePack
