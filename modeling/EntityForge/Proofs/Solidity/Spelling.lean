import Mathlib
import EntityForge.Proofs.Text.Separators
import EntityForge.Solidity.Syntax

/-!
How ids and names are spelled in contracts. An id is spelled as an identifier by replacing what
identifiers do not have, so different ids can be spelled alike; ids that are identifiers are spelled
as they are (`identifier_eq_self`). Upper case joins the two cases of a letter and nothing else
(`eq_of_upper_eq`), and names in snake case have one of them only
(`isUpper_eq_false_of_mem_snakeCase`).
-/

namespace EntityForge

namespace Text

theorem toNat_lt_of_isUpper {c : Char} (isUpper : c.isUpper = true) :
    0 < c.toNat ∧ c.toNat < 0x61 := by
  delta Char.isUpper at isUpper
  simp only [decide_eq_true_eq, UInt32.le_iff_toNat_le, ge_iff_le] at isUpper
  change 0 < c.val.toNat ∧ c.val.toNat < 0x61
  have first : 'A'.val.toNat = 65 := rfl
  have last : 'Z'.val.toNat = 90 := rfl
  omega

/-- No character has an upper case letter of ASCII in its lower case form. -/
theorem isUpper_eq_false_of_mem_toLower {c d : Char} (mem : d ∈ toLower c) : d.isUpper = false := by
  by_contra capital
  rw [Bool.not_eq_false] at capital
  obtain ⟨positive, below⟩ := toNat_lt_of_isUpper capital
  obtain rfl := eq_of_mem_toLower positive below mem
  rw [toLower, if_pos (by omega), List.mem_singleton] at mem
  rw [mem, Char.isUpper_toLower_eq_false] at capital
  cases capital

theorem isUpper_eq_false_of_mem_lowerWord {word : List Char} {d : Char} (mem : d ∈ lowerWord word) :
    d.isUpper = false := by
  fun_induction lowerWord word with
  | case1 => cases mem
  | case2 =>
      obtain rfl := List.mem_singleton.mp mem
      decide
  | case3 c => exact isUpper_eq_false_of_mem_toLower mem
  | case4 c rest _ ih =>
      rcases List.mem_append.mp mem with first | later
      · exact isUpper_eq_false_of_mem_toLower first
      · exact ih later

/-- A name in snake case has no upper case letters of ASCII. -/
theorem isUpper_eq_false_of_mem_snakeCase {name : String} :
    ∀ c ∈ (snakeCase name).toList, c.isUpper = false :=
  forall_mem_snakeCase (by decide) fun _ _ _ => isUpper_eq_false_of_mem_lowerWord

end Text

namespace Solidity

open Text

/-! ### Upper case -/

theorem toList_upper (name : String) : (upper name).toList = name.toList.map Char.toUpper := by
  rw [upper, String.toList_map]

theorem upper_append (first rest : String) : upper (first ++ rest) = upper first ++ upper rest := by
  apply String.toList_inj.mp
  simp only [toList_upper, String.toList_append, List.map_append]

/-- A character that is no letter is the upper case of itself only. -/
theorem toUpper_eq_iff {c d : Char} (noLetter : d.isAlpha = false) : c.toUpper = d ↔ c = d := by
  constructor
  · rintro rfl
    rw [Char.isAlpha_toUpper_eq_isAlpha] at noLetter
    rw [Char.toUpper_eq_of_not_isLower]
    intro lower
    rw [Char.isAlpha, lower, Bool.or_true] at noLetter
    cases noLetter
  · rintro rfl
    refine Char.toUpper_eq_of_not_isLower fun lower => ?_
    rw [Char.isAlpha, lower, Bool.or_true] at noLetter
    cases noLetter

theorem mem_upper_iff {d : Char} (noLetter : d.isAlpha = false) (name : String) :
    d ∈ (upper name).toList ↔ d ∈ name.toList := by
  rw [toList_upper, List.mem_map]
  simp only [toUpper_eq_iff noLetter, exists_eq_right]

/-- Texts without upper case letters are told apart in upper case. -/
theorem map_toUpper_inj {a b : List Char} (lowerA : ∀ c ∈ a, c.isUpper = false)
    (lowerB : ∀ c ∈ b, c.isUpper = false) (same : a.map Char.toUpper = b.map Char.toUpper) : a = b := by
  have fixed : ∀ chars : List Char, (∀ c ∈ chars, c.isUpper = false) →
      (chars.map Char.toUpper).map Char.toLower = chars := by
    intro chars lower
    rw [List.map_map, List.map_congr_left fun c mem => ?_, List.map_id]
    rw [Function.comp_apply, Char.toLower_toUpper_eq_toLower,
      Char.toLower_eq_of_not_isUpper (by rw [lower c mem]; exact Bool.false_ne_true), id]
  rw [← fixed a lowerA, same, fixed b lowerB]

theorem eq_of_upper_eq {a b : String} (lowerA : ∀ c ∈ a.toList, c.isUpper = false)
    (lowerB : ∀ c ∈ b.toList, c.isUpper = false) (same : upper a = upper b) : a = b := by
  refine String.toList_inj.mp (map_toUpper_inj lowerA lowerB ?_)
  rw [← toList_upper, same, toList_upper]

/-! ### Identifiers of ids -/

/-- The spelling of an id is an identifier. -/
theorem isIdentifier_identifier (id : String) : IsIdentifier (identifier id).toList := by
  have each : IsIdentifier (id.toList.map fun c => if c.isAlphanum || c == '_' then c else '_') := by
    intro c mem
    obtain ⟨d, _, rfl⟩ := List.mem_map.mp mem
    split
    · rename_i plain
      simpa [IsIdentifierChar] using plain
    · exact .inr rfl
  unfold identifier
  dsimp only
  split
  · decide
  · rename_i c rest here
    rw [here] at each
    rw [String.toList_ofList]
    split
    · rw [here]
      exact List.forall_mem_cons.mpr ⟨.inr rfl, each⟩
    · rw [here]
      exact each

/-- An id that is an identifier already. -/
structure IsPlain (id : String) : Prop where
  chars : IsIdentifier id.toList
  nonempty : id ≠ ""
  noDigit : ∀ c, id.toList.head? = some c → c.isDigit = false

/-- An id that is an identifier is spelled as it is. -/
theorem identifier_eq_self {id : String} (plain : IsPlain id) : identifier id = id := by
  have kept : (id.toList.map fun c => if c.isAlphanum || c == '_' then c else '_') = id.toList := by
    refine (List.map_congr_left fun c mem => ?_).trans (List.map_id _)
    rw [if_pos, id_eq]
    rcases plain.chars c mem with alphanumeric | rfl
    · rw [alphanumeric, Bool.true_or]
    · decide
  unfold identifier
  dsimp only
  rw [kept]
  split
  · rename_i empty
    exact (plain.nonempty (String.toList_inj.mp empty)).elim
  · rename_i c rest here
    rw [if_neg (by rw [plain.noDigit c (by rw [here]; rfl)]; exact Bool.false_ne_true), String.ofList_toList]

end Solidity

end EntityForge
