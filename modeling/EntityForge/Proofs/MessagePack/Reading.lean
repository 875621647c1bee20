import EntityForge.MessagePack.Reader
import EntityForge.MessagePack.Writer
import Mathlib.Tactic.Ring

/-!
Readers against what they read. `Reads reader written a` says that `reader` takes exactly the bytes
`written` from the front, whatever follows them, and gives `a`. Readers that follow each other read
what stands next to each other (`Reads.bind`), so a reader is matched with a writer part by part.

Below that are numbers: writing keeps the last digits to the base 256 (`ofDigits_bigEndian`), so a
number that fits a width is read back from it, a signed one from its two's complement.
-/

namespace EntityForge.MessagePack

/-- The reader takes exactly these bytes from the front, and they give the value. -/
def Reads {α : Type} (reader : Reader α) (written : List UInt8) (a : α) : Prop :=
  ∀ rest, reader (written ++ rest) = some (a, rest)

variable {α β : Type} {reader : Reader α} {written written' : List UInt8} {a : α} {b : β}

theorem Reads.bind {next : α → Reader β} (first : Reads reader written a)
    (second : Reads (next a) written' b) : Reads (reader >>= next) (written ++ written') b := by
  intro rest
  change (reader (written ++ written' ++ rest)).bind (fun (a, rest) => next a rest) = _
  rw [List.append_assoc, first]
  exact second rest

theorem reads_pure (a : α) : Reads (pure a) [] a := fun _ => rfl

theorem Reads.map (reads : Reads reader written a) (f : α → β) :
    Reads (f <$> reader) written (f a) := by
  intro rest
  change (reader (written ++ rest)).bind (fun (a, rest) => some (f a, rest)) = _
  rw [reads]
  rfl

theorem reads_take (bytes : List UInt8) : Reads (take bytes.length) bytes bytes := by
  intro rest
  simp [take]

/-- Things that are each read back are read back one after the other. -/
theorem reads_repeated {write : α → List UInt8} {items : List α}
    (each : ∀ a ∈ items, Reads reader (write a) a) :
    Reads (repeated reader items.length) (items.flatMap write) items := by
  induction items with
  | nil => exact reads_pure []
  | cons a rest ih =>
      obtain ⟨first, others⟩ := List.forall_mem_cons.mp each
      rw [List.flatMap_cons, ← List.append_nil (rest.flatMap write)]
      exact first.bind ((ih others).bind (reads_pure (a :: rest)))

/-! ### Numbers -/

variable {width n : Nat}

theorem sequences_pos (width : Nat) : 0 < sequences width := by
  induction width with
  | zero => decide
  | succ width ih =>
      rw [sequences]
      omega

@[simp] theorem length_bigEndian (width n : Nat) : (bigEndian width n).length = width := by
  induction width with
  | zero => rfl
  | succ width ih => rw [bigEndian, List.length_cons, ih]

/-- The first digit counts the sequences of the others. -/
theorem ofDigits_cons (digit : UInt8) (digits : List UInt8) :
    ofDigits (digit :: digits) = digit.toNat * sequences digits.length + ofDigits digits := by
  have shift : ∀ (digits : List UInt8) (start : Nat),
      digits.foldl (fun n digit => n * 256 + digit.toNat) start =
        start * sequences digits.length + ofDigits digits := by
    intro digits
    induction digits with
    | nil => simp [sequences, ofDigits]
    | cons d digits ih =>
        intro start
        rw [ofDigits, List.foldl_cons, List.foldl_cons, ih, ih, List.length_cons, sequences]
        ring
  rw [ofDigits, List.foldl_cons, shift]
  simp

/-- **Writing in a width keeps the last digits of a number.** -/
theorem ofDigits_bigEndian (width n : Nat) :
    ofDigits (bigEndian width n) = n % sequences width := by
  induction width with
  | zero => simp [bigEndian, ofDigits, sequences, Nat.mod_one]
  | succ width ih =>
      rw [bigEndian, ofDigits_cons, length_bigEndian, ih, sequences, Nat.mul_comm 256,
        Nat.mod_mul, UInt8.toNat_ofNat']
      ring

theorem reads_takeNatural (fits : n < sequences width) :
    Reads (takeNatural width) (bigEndian width n) n := by
  have digits := (reads_take (bigEndian width n)).map ofDigits
  rwa [length_bigEndian, ofDigits_bigEndian, Nat.mod_eq_of_lt fits] at digits

/-- Numbers whose doubles fit a width up to the sign are read back from their two's complement. -/
theorem reads_takeSigned {n : Int} (above : -(sequences width : Int) ≤ 2 * n)
    (below : 2 * n < sequences width) : Reads (takeSigned width) (twosComplement width n) n := by
  have positive := sequences_pos width
  have sign : (if 2 * (n % sequences width).toNat < sequences width
      then ((n % sequences width).toNat : Int)
      else ((n % sequences width).toNat : Int) - sequences width) = n := by
    rcases Int.lt_or_le n 0 with negative | natural
    · have wrapped : n % sequences width = n + sequences width := by
        rw [← Int.add_mul_emod_self_left n (sequences width) 1, Int.mul_one]
        exact Int.emod_eq_of_lt (by omega) (by omega)
      rw [wrapped, if_neg (by omega)]
      omega
    · rw [Int.emod_eq_of_lt natural (by omega), if_pos (by omega)]
      omega
  have fits : (n % sequences width).toNat < sequences width := by
    have := Int.emod_lt_of_pos n (b := (sequences width : Int)) (by omega)
    omega
  unfold takeSigned
  rw [← List.append_nil (twosComplement width n)]
  refine (reads_takeNatural fits).bind ?_
  rw [sign]
  exact reads_pure n

/-- Bytes are read back behind their number. -/
theorem reads_takeSized {bytes : List UInt8} (fits : bytes.length < sequences width) :
    Reads (takeSized width) (bigEndian width bytes.length ++ bytes) bytes :=
  (reads_takeNatural fits).bind (reads_take bytes)

end EntityForge.MessagePack
