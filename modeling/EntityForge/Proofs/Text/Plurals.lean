import Mathlib
import EntityForge.Text.Plural

/-!
Plurals of names in lower case. There are four rules (`HasPlural`), and they do not tell all names
apart: `ax` and `axe` have one plural, and so have `cooky` and `cookie`. `SharesPlural` lists all pairs
of names that have (`hasPlural_eq_iff`).
-/

namespace EntityForge.Text

variable {name a b : List Char}

/-! ### Rules -/

/-- What follows the last underscore or blank. -/
def lastPart (name : List Char) : List Char :=
  (name.reverse.takeWhile fun c => c != '_' && c != ' ').reverse

/-- The name is its own plural. -/
def IsOwnPlural (name : List Char) : Prop :=
  lastPart name = [] ∨ (∃ word ∈ uncountable, word.toList = lastPart name) ∨
    ['t', 'a'] <:+ name ∨ ['i', 'a'] <:+ name

/-- The name ends in a sibilant. -/
def IsSibilant (name : List Char) : Prop := ∃ ending ∈ sibilantEndings, ending.toList <:+ name

def vowels : List Char := ['a', 'e', 'i', 'o', 'u']

/-- The name ends in `y` after something that is no vowel. -/
def EndsInConsonantY (name : List Char) : Prop := ∃ stem c, name = stem ++ [c, 'y'] ∧ c ∉ vowels

/-- The plural of a name in lower case, by the first rule that fits. -/
inductive HasPlural : List Char → List Char → Prop where
  | own {name : List Char} : IsOwnPlural name → HasPlural name name
  | es {name : List Char} : ¬ IsOwnPlural name → IsSibilant name → HasPlural name (name ++ ['e', 's'])
  | ies {stem : List Char} {c : Char} : c ∉ vowels →
      HasPlural (stem ++ [c, 'y']) (stem ++ [c, 'i', 'e', 's'])
  | s {name : List Char} : ¬ IsOwnPlural name → ¬ IsSibilant name → ¬ EndsInConsonantY name →
      HasPlural name (name ++ ['s'])

theorem map_toLower_eq (lower : ∀ c ∈ name, c.isUpper = false) : name.map Char.toLower = name := by
  rw [List.map_congr_left fun c mem => ?_, List.map_id]
  rw [Char.toLower_eq_of_not_isUpper (by rw [lower c mem]; exact Bool.false_ne_true), id]

theorem lastWord_eq (lower : ∀ c ∈ name, c.isUpper = false) : lastWord name = lastPart name := by
  have noCapital : name.reverse.dropWhile (fun c => !c.isUpper) = [] := by
    rw [List.dropWhile_eq_nil_iff]
    intro c mem
    rw [lower c (List.mem_reverse.mp mem), Bool.not_false]
  have part : ∀ c ∈ lastPart name, c.isUpper = false := by
    intro c mem
    exact lower c (List.mem_reverse.mp (List.takeWhile_subset _ (List.mem_reverse.mp mem)))
  unfold lastWord
  rw [List.span_eq_takeWhile_dropWhile, noCapital]
  exact map_toLower_eq part

/-- The plural of a name in lower case is made by the rules. -/
theorem hasPlural_plural {name : String} (lower : ∀ c ∈ name.toList, c.isUpper = false) :
    HasPlural name.toList (plural name).toList := by
  unfold plural
  dsimp only
  rw [map_toLower_eq lower, lastWord_eq lower]
  split
  · rename_i listed
    rw [Bool.or_eq_true, List.isEmpty_iff, List.any_eq_true] at listed
    rcases listed with none | ⟨word, mem, same⟩
    · exact .own (.inl none)
    · exact .own (.inr (.inl ⟨word, mem, beq_iff_eq.mp same⟩))
  rename_i unlisted
  rw [Bool.or_eq_true, List.isEmpty_iff, List.any_eq_true] at unlisted
  split
  · rename_i latin
    rw [Bool.or_eq_true, List.isSuffixOf_iff_suffix, List.isSuffixOf_iff_suffix] at latin
    exact .own (.inr (.inr latin))
  rename_i notLatin
  rw [Bool.or_eq_true, List.isSuffixOf_iff_suffix, List.isSuffixOf_iff_suffix] at notLatin
  have notOwn : ¬ IsOwnPlural name.toList := by
    rintro (none | ⟨word, mem, same⟩ | latin)
    · exact unlisted (.inl none)
    · exact unlisted (.inr ⟨word, mem, beq_iff_eq.mpr same⟩)
    · exact notLatin latin
  have sibilant_iff : sibilantEndings.any (fun ending => ending.toList.isSuffixOf name.toList) = true ↔
      IsSibilant name.toList := by
    simp only [List.any_eq_true, List.isSuffixOf_iff_suffix, IsSibilant]
  split
  · rename_i sibilant
    rw [String.toList_append]
    exact .es notOwn (sibilant_iff.mp sibilant)
  rename_i notSibilant
  rw [sibilant_iff] at notSibilant
  split
  · rename_i before rest reversed
    have ends : name.toList = rest.reverse ++ [before, 'y'] := by
      simpa using congrArg List.reverse reversed
    split
    · rename_i vowel
      rw [String.toList_append]
      refine .s notOwn notSibilant ?_
      rintro ⟨stem, c, ends', consonant⟩
      obtain ⟨_, same⟩ := List.append_inj' (ends'.symm.trans ends) rfl
      exact consonant ((List.cons.inj same).1 ▸ vowel)
    · rename_i consonant
      have whole : (String.ofList name.toList.dropLast ++ "ies").toList =
          rest.reverse ++ [before, 'i', 'e', 's'] := by
        rw [String.toList_append, String.toList_ofList, ends, List.dropLast_append_cons]
        simp
      rw [whole, ends]
      exact .ies consonant
  · rename_i other
    rw [String.toList_append]
    refine .s notOwn notSibilant ?_
    rintro ⟨stem, c, ends, _⟩
    exact other c stem.reverse (by rw [ends]; simp)

/-! ### Names with an ending -/

/-- The last part goes on with characters that separate nothing. -/
theorem lastPart_append {ending : List Char} (joins : ∀ c ∈ ending, c ≠ '_' ∧ c ≠ ' ') :
    lastPart (name ++ ending) = lastPart name ++ ending := by
  unfold lastPart
  rw [List.reverse_append, List.takeWhile_append_of_pos, List.reverse_append, List.reverse_reverse]
  intro c mem
  simpa using joins c (List.mem_reverse.mp mem)

theorem lastPart_suffix (name : List Char) : lastPart name <:+ name := by
  rw [← List.reverse_prefix, lastPart, List.reverse_reverse]
  exact List.takeWhile_prefix _

/-- With an ending other than `a`, only the words that are listed are their own plural. -/
theorem isOwnPlural_append_iff {ending : List Char} (joins : ∀ c ∈ ending, c ≠ '_' ∧ c ≠ ' ')
    {last : Char} (ends : ending.getLast? = some last) (other : last ≠ 'a') :
    IsOwnPlural (name ++ ending) ↔ ∃ word ∈ uncountable, word.toList = lastPart name ++ ending := by
  have notLatin : ∀ c, ¬ [c, 'a'] <:+ name ++ ending := by
    rintro c ⟨front, same⟩
    have lasts := congrArg List.getLast? same
    rw [List.getLast?_append, List.getLast?_append, ends] at lasts
    exact other (Option.some.inj lasts).symm
  unfold IsOwnPlural
  rw [lastPart_append joins]
  constructor
  · rintro (none | listed | latin | latin)
    · rw [(List.append_eq_nil_iff.mp none).2] at ends
      cases ends
    · exact listed
    · exact absurd latin (notLatin _)
    · exact absurd latin (notLatin _)
  · exact fun listed => .inr (.inl listed)

/-- What stands before the ending of an own plural, where the listed words with this ending have one
of `options` before it. -/
theorem IsOwnPlural.exists_suffix {ending : List Char} (own : IsOwnPlural (name ++ ending))
    (joins : ∀ c ∈ ending, c ≠ '_' ∧ c ≠ ' ') {last : Char} (ends : ending.getLast? = some last)
    (other : last ≠ 'a') {options : List (List Char)}
    (listed : ∀ word ∈ uncountable, ending <:+ word.toList →
      ∃ before ∈ options, before ++ ending <:+ word.toList) :
    ∃ before ∈ options, before <:+ name := by
  obtain ⟨word, mem, same⟩ := (isOwnPlural_append_iff joins ends other).mp own
  obtain ⟨before, option, front, split⟩ := listed word mem ⟨_, same.symm⟩
  rw [same, ← List.append_assoc] at split
  have part : before <:+ lastPart name := ⟨front, (List.append_inj' split rfl).1⟩
  exact ⟨before, option, part.trans (lastPart_suffix name)⟩

/-- An own plural that ends in `s` ends in `ies`. -/
theorem IsOwnPlural.suffix (own : IsOwnPlural (name ++ ['s'])) : ['i', 'e'] <:+ name := by
  obtain ⟨before, option, suffix⟩ := own.exists_suffix (by simp) rfl (by decide)
    (show ∀ word ∈ uncountable, ['s'] <:+ word.toList →
      ∃ before ∈ [['i', 'e']], before ++ ['s'] <:+ word.toList by decide +kernel)
  exact List.mem_singleton.mp option ▸ suffix

/-- An own plural that ends in `e` ends in `ce`. -/
theorem IsOwnPlural.eq_of_e {c : Char} (own : IsOwnPlural (name ++ [c] ++ ['e'])) : c = 'c' := by
  obtain ⟨before, option, front, suffix⟩ := own.exists_suffix (by simp) rfl (by decide)
    (show ∀ word ∈ uncountable, ['e'] <:+ word.toList →
      ∃ before ∈ [['c']], before ++ ['e'] <:+ word.toList by decide +kernel)
  rw [List.mem_singleton.mp option] at suffix
  exact (List.cons.inj (List.append_inj' suffix rfl).2).1.symm

/-- An own plural that ends in `y` ends in `ey`. -/
theorem not_isOwnPlural_y {stem : List Char} {c : Char} (consonant : c ∉ vowels) :
    ¬ IsOwnPlural (stem ++ [c, 'y']) := by
  rw [List.append_cons]
  intro own
  obtain ⟨before, option, front, suffix⟩ := own.exists_suffix (by simp) rfl (by decide)
    (show ∀ word ∈ uncountable, ['y'] <:+ word.toList →
      ∃ before ∈ [['e']], before ++ ['y'] <:+ word.toList by decide +kernel)
  rw [List.mem_singleton.mp option] at suffix
  rw [← (List.cons.inj (List.append_inj' suffix rfl).2).1] at consonant
  exact consonant (by decide)

/-- An own plural that ends in `ies` has a consonant before that. -/
theorem IsOwnPlural.exists_stem {stem : List Char} (own : IsOwnPlural (stem ++ ['i', 'e', 's'])) :
    ∃ front c, stem = front ++ [c] ∧ c ∉ vowels := by
  obtain ⟨before, option, front, rfl⟩ := own.exists_suffix (by simp) rfl (by decide)
    (show ∀ word ∈ uncountable, ['i', 'e', 's'] <:+ word.toList →
      ∃ before ∈ [['r'], ['c']], before ++ ['i', 'e', 's'] <:+ word.toList by decide +kernel)
  rcases List.mem_pair.mp option with rfl | rfl
  · exact ⟨front, 'r', rfl, by decide⟩
  · exact ⟨front, 'c', rfl, by decide⟩

/-- What a sibilant ends in. -/
theorem IsSibilant.mem {c : Char} (sibilant : IsSibilant (name ++ [c])) : c ∈ ['x', 'h', 's', 'z'] := by
  obtain ⟨ending, listed, front, same⟩ := sibilant
  have all : ∀ ending ∈ sibilantEndings, ∃ c ∈ ['x', 'h', 's', 'z'], ending.toList.getLast? = some c := by
    simp [sibilantEndings]
  obtain ⟨last, mem, ends⟩ := all ending listed
  have lasts := congrArg List.getLast? same
  rw [List.getLast?_append, ends, List.getLast?_concat] at lasts
  exact Option.some.inj lasts ▸ mem

theorem IsSibilant.exists_concat (sibilant : IsSibilant name) :
    ∃ stem c, name = stem ++ [c] ∧ c ∈ ['x', 'h', 's', 'z'] := by
  rcases List.eq_nil_or_concat' name with rfl | ⟨stem, c, rfl⟩
  · obtain ⟨ending, listed, suffix⟩ := sibilant
    have all : ∀ ending ∈ sibilantEndings, ending.toList ≠ [] := by decide +kernel
    exact absurd (List.suffix_nil.mp suffix) (all ending listed)
  · exact ⟨stem, c, rfl, sibilant.mem⟩

/-! ### Names with one plural -/

/-- Two names in lower case that differ and have one plural. -/
inductive SharesPlural : List Char → List Char → Prop where
  /-- As `ax` and `axe`. -/
  | sibilant {name : List Char} : IsSibilant name → ¬ IsOwnPlural name →
      SharesPlural name (name ++ ['e'])
  /-- As `cooky` and `cookie`. -/
  | consonantY {stem : List Char} {c : Char} : c ∉ vowels →
      SharesPlural (stem ++ [c, 'y']) (stem ++ [c, 'i', 'e'])
  /-- As `series` and `serie`. -/
  | ownE {stem : List Char} : IsOwnPlural (stem ++ ['i', 'e', 's']) →
      SharesPlural (stem ++ ['i', 'e', 's']) (stem ++ ['i', 'e'])
  /-- As `series` and `sery`. -/
  | ownY {stem : List Char} : IsOwnPlural (stem ++ ['i', 'e', 's']) →
      SharesPlural (stem ++ ['i', 'e', 's']) (stem ++ ['y'])

/-- A sibilant with `es` is no own plural. -/
theorem IsSibilant.not_isOwnPlural (sibilant : IsSibilant name) : ¬ IsOwnPlural (name ++ ['e', 's']) := by
  intro own
  rw [List.append_cons] at own
  obtain ⟨front, ends⟩ := own.suffix
  have cut : (front ++ ['i']) ++ ['e'] = name ++ ['e'] := by simpa using ends
  rw [← (List.append_inj' cut rfl).1] at sibilant
  exact absurd sibilant.mem (by decide)

/-- A sibilant does not end as a plural in `ies` does before its last two letters. -/
theorem IsSibilant.ne (sibilant : IsSibilant name) (stem : List Char) (c : Char) :
    name ++ ['e', 's'] ≠ stem ++ [c, 'i', 'e', 's'] := by
  intro same
  have cut : name ++ ['e', 's'] = (stem ++ [c] ++ ['i']) ++ ['e', 's'] := by simpa using same
  rw [(List.append_inj' cut rfl).1] at sibilant
  exact absurd sibilant.mem (by decide)

/-- The names whose plural is an own plural. -/
theorem HasPlural.of_own {p : List Char} (own : IsOwnPlural p) (plural : HasPlural b p) :
    b = p ∨ SharesPlural p b := by
  cases plural with
  | own _ => exact .inl rfl
  | es _ sibilant => exact absurd own sibilant.not_isOwnPlural
  | @ies stem c _ =>
      rw [List.append_cons stem c ['i', 'e', 's']] at own ⊢
      rw [List.append_cons stem c ['y']]
      exact .inr (.ownY own)
  | s _ _ _ =>
      obtain ⟨front, rfl⟩ := own.suffix
      rw [List.append_assoc] at own ⊢
      exact .inr (.ownE own)

/-- The names whose plural is that of a sibilant. -/
theorem HasPlural.of_es (notOwn : ¬ IsOwnPlural a) (sibilant : IsSibilant a)
    (plural : HasPlural b (a ++ ['e', 's'])) : b = a ∨ SharesPlural a b := by
  generalize made : a ++ ['e', 's'] = p at plural
  cases plural with
  | own own => exact absurd (made ▸ own) sibilant.not_isOwnPlural
  | es _ _ => exact .inl (List.append_inj' made rfl).1.symm
  | @ies stem c _ => exact absurd made (sibilant.ne stem c)
  | s _ _ _ =>
      rw [List.append_cons] at made
      rw [← (List.append_inj' made rfl).1]
      exact .inr (.sibilant sibilant notOwn)

/-- The names whose plural is that of a name in `y`. -/
theorem HasPlural.of_ies {stem : List Char} {c : Char} (consonant : c ∉ vowels)
    (plural : HasPlural b (stem ++ [c, 'i', 'e', 's'])) :
    b = stem ++ [c, 'y'] ∨ SharesPlural (stem ++ [c, 'y']) b ∨ SharesPlural b (stem ++ [c, 'y']) := by
  generalize made : stem ++ [c, 'i', 'e', 's'] = p at plural
  cases plural with
  | own own =>
      rcases (made ▸ HasPlural.ies consonant).of_own own with same | shares
      · exact .inl same.symm
      · exact .inr (.inr shares)
  | es _ sibilant => exact absurd made.symm (sibilant.ne stem c)
  | @ies stem' c' _ =>
      obtain ⟨rfl, same⟩ := List.append_inj' made rfl
      rw [(List.cons.inj same).1]
      exact .inl rfl
  | s _ _ _ =>
      have cut : (stem ++ [c, 'i', 'e']) ++ ['s'] = b ++ ['s'] := by simpa using made
      rw [← (List.append_inj' cut rfl).1]
      exact .inr (.inl (.consonantY consonant))

/-- Names with one plural are equal or one of the listed pairs. -/
theorem HasPlural.eq_or_sharesPlural {p : List Char} (first : HasPlural a p) (second : HasPlural b p) :
    a = b ∨ SharesPlural a b ∨ SharesPlural b a := by
  cases first with
  | own own =>
      rcases second.of_own own with same | shares
      · exact .inl same.symm
      · exact .inr (.inl shares)
  | es notOwn sibilant =>
      rcases second.of_es notOwn sibilant with same | shares
      · exact .inl same.symm
      · exact .inr (.inl shares)
  | ies consonant =>
      rcases second.of_ies consonant with same | shares
      · exact .inl same.symm
      · exact .inr shares
  | s notOwn notSibilant notY =>
      generalize made : a ++ ['s'] = p at second
      have first : HasPlural a p := made ▸ .s notOwn notSibilant notY
      cases second with
      | own own => exact (first.of_own own).imp_right .inr
      | es notOwn sibilant => exact (first.of_es notOwn sibilant).imp_right .inr
      | ies consonant => exact (first.of_ies consonant).imp_right Or.symm
      | s _ _ _ => exact .inl (List.append_inj' made rfl).1

/-! ### Plurals of the listed pairs -/

/-- A name in `e` takes an `s`. -/
theorem hasPlural_e {c : Char} (other : c ≠ 'c') :
    HasPlural (name ++ [c] ++ ['e']) (name ++ [c] ++ ['e', 's']) := by
  rw [List.append_cons _ 'e' ['s']]
  refine .s (fun own => other own.eq_of_e) (fun sibilant => absurd sibilant.mem (by decide)) ?_
  rintro ⟨stem, d, ends, _⟩
  rw [List.append_cons stem d ['y']] at ends
  exact absurd (List.append_inj' ends rfl).2 (by decide)

theorem SharesPlural.exists_hasPlural (shares : SharesPlural a b) :
    ∃ p, HasPlural a p ∧ HasPlural b p := by
  cases shares with
  | sibilant sibilant notOwn =>
      obtain ⟨stem, c, rfl, mem⟩ := sibilant.exists_concat
      refine ⟨_, .es notOwn sibilant, hasPlural_e ?_⟩
      rintro rfl
      exact absurd mem (by decide)
  | @consonantY stem c consonant =>
      refine ⟨_, .ies consonant, ?_⟩
      simpa using @hasPlural_e (stem ++ [c]) 'i' (by decide)
  | @ownE stem own =>
      refine ⟨_, .own own, ?_⟩
      simpa using @hasPlural_e stem 'i' (by decide)
  | ownY own =>
      obtain ⟨front, c, rfl, consonant⟩ := own.exists_stem
      refine ⟨_, .own own, ?_⟩
      simpa using @HasPlural.ies front c consonant

/-- A name in lower case has one plural. -/
theorem HasPlural.unique {p p' : List Char} (first : HasPlural name p) (second : HasPlural name p') :
    p = p' := by
  cases first with
  | own own =>
      cases second with
      | own _ => rfl
      | es notOwn _ => exact absurd own notOwn
      | ies consonant => exact absurd own (not_isOwnPlural_y consonant)
      | s notOwn _ _ => exact absurd own notOwn
  | es notOwn sibilant =>
      cases second with
      | own own => exact absurd own notOwn
      | es _ _ => rfl
      | @ies stem c _ =>
          rw [List.append_cons] at sibilant
          exact absurd sibilant.mem (by decide)
      | s _ notSibilant _ => exact absurd sibilant notSibilant
  | @ies stem c consonant =>
      generalize made : stem ++ [c, 'y'] = name at second
      cases second with
      | own own => exact absurd (made ▸ own) (not_isOwnPlural_y consonant)
      | es _ sibilant =>
          rw [← made, List.append_cons] at sibilant
          exact absurd sibilant.mem (by decide)
      | ies _ =>
          obtain ⟨rfl, same⟩ := List.append_inj' made rfl
          rw [(List.cons.inj same).1]
      | s _ _ notY => exact absurd ⟨stem, c, made.symm, consonant⟩ notY
  | s notOwn notSibilant notY =>
      cases second with
      | own own => exact absurd own notOwn
      | es _ sibilant => exact absurd sibilant notSibilant
      | ies consonant => exact absurd ⟨_, _, rfl, consonant⟩ notY
      | s _ _ _ => rfl

/-- The second of a listed pair ends in `e` or `y`. -/
theorem SharesPlural.getLast? (shares : SharesPlural a b) :
    b.getLast? = some 'e' ∨ b.getLast? = some 'y' := by
  cases shares with
  | sibilant _ _ => exact .inl List.getLast?_concat
  | consonantY _ => exact .inl (by simp)
  | ownE _ => exact .inl (by simp)
  | ownY _ => exact .inr List.getLast?_concat

/-- **Two names in lower case have one plural exactly if they are equal or a listed pair.** -/
theorem plural_eq_iff {first second : String} (lower : ∀ c ∈ first.toList, c.isUpper = false)
    (lower' : ∀ c ∈ second.toList, c.isUpper = false) :
    plural first = plural second ↔ first = second ∨
      SharesPlural first.toList second.toList ∨ SharesPlural second.toList first.toList := by
  have one := hasPlural_plural lower
  have other := hasPlural_plural lower'
  have same_of_shares : ∀ p, HasPlural first.toList p → HasPlural second.toList p →
      plural first = plural second := fun p here there =>
    String.toList_inj.mp ((one.unique here).trans (there.unique other))
  constructor
  · intro same
    rw [← same] at other
    exact (one.eq_or_sharesPlural other).imp_left String.toList_inj.mp
  · rintro (rfl | shares | shares)
    · rfl
    · obtain ⟨p, here, there⟩ := shares.exists_hasPlural
      exact same_of_shares p here there
    · obtain ⟨p, there, here⟩ := shares.exists_hasPlural
      exact same_of_shares p here there

end EntityForge.Text
