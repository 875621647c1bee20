import EntityForge.Names

/-!
Names made of ASCII letters, digits and underscores. The forms that are derived from such a name are
put together from its characters, each in one case or the other, and from underscores. So they are
made of such characters again (`isIdentifier_canonicalName`), and none of them is a separator of
paths.
-/

namespace EntityForge.Text

/-- A letter or digit of ASCII, or an underscore. -/
def IsIdentifierChar (c : Char) : Prop := c.isAlphanum = true ∨ c = '_'

instance (c : Char) : Decidable (IsIdentifierChar c) := inferInstanceAs (Decidable (_ ∨ _))

/-- All characters are those of identifiers. -/
def IsIdentifier (chars : List Char) : Prop := ∀ c ∈ chars, IsIdentifierChar c

instance (chars : List Char) : Decidable (IsIdentifier chars) :=
  List.decidableBAll IsIdentifierChar chars

variable {c : Char} {chars word : List Char}

/-! ### Characters -/

theorem IsIdentifierChar.toNat_lt (char : IsIdentifierChar c) : c.toNat < 0x80 := by
  rcases char with alphanumeric | rfl
  · delta Char.isAlphanum Char.isAlpha Char.isUpper Char.isLower Char.isDigit at alphanumeric
    simp only [Bool.or_eq_true, Bool.and_eq_true, decide_eq_true_eq, UInt32.le_iff_toNat_le,
      ge_iff_le] at alphanumeric
    change c.val.toNat < 128
    have upper : 'Z'.val.toNat = 90 := rfl
    have lower : 'z'.val.toNat = 122 := rfl
    have digit : '9'.val.toNat = 57 := rfl
    omega
  · decide

/-- The characters of identifiers, in the order of their codes. -/
def identifierChars : List Char :=
  ((List.range 0x80).map Char.ofNat).filter fun c => IsIdentifierChar c

theorem IsIdentifierChar.mem (char : IsIdentifierChar c) : c ∈ identifierChars := by
  have listed : Char.ofNat c.toNat ∈ (List.range 0x80).map Char.ofNat :=
    List.mem_map_of_mem (List.mem_range.mpr char.toNat_lt)
  rw [Char.ofNat_toNat] at listed
  exact List.mem_filter.mpr ⟨listed, decide_eq_true char⟩

theorem IsIdentifierChar.toLower (char : IsIdentifierChar c) : IsIdentifier (toLower c) := by
  have all : (identifierChars.all fun c => IsIdentifier (Text.toLower c)) = true := by decide +kernel
  exact of_decide_eq_true (List.all_eq_true.mp all c char.mem)

theorem IsIdentifierChar.toUpper (char : IsIdentifierChar c) : IsIdentifier (toUpper c) := by
  have all : (identifierChars.all fun c => IsIdentifier (Text.toUpper c)) = true := by decide +kernel
  exact of_decide_eq_true (List.all_eq_true.mp all c char.mem)

theorem IsIdentifier.append {more : List Char} (first : IsIdentifier chars)
    (rest : IsIdentifier more) : IsIdentifier (chars ++ more) := by
  intro c mem
  rcases List.mem_append.mp mem with here | later
  · exact first c here
  · exact rest c later

theorem isIdentifier_flatten {parts : List (List Char)} (each : ∀ part ∈ parts, IsIdentifier part) :
    IsIdentifier parts.flatten := by
  intro c mem
  obtain ⟨part, listed, here⟩ := List.mem_flatten.mp mem
  exact each part listed c here

/-- A text is made of what its parts and the separator between them are made of. -/
theorem forall_mem_intercalate {P : Char → Prop} {separator : List Char} {parts : List (List Char)}
    (between : ∀ c ∈ separator, P c) (each : ∀ part ∈ parts, ∀ c ∈ part, P c) :
    ∀ c ∈ separator.intercalate parts, P c := by
  induction parts with
  | nil => exact fun _ mem => (List.not_mem_nil mem).elim
  | cons part rest ih =>
      obtain ⟨first, others⟩ := List.forall_mem_cons.mp each
      cases rest with
      | nil => simpa using first
      | cons next rest =>
          rw [List.intercalate_cons_cons]
          exact List.forall_mem_append.mpr
            ⟨List.forall_mem_append.mpr ⟨first, between⟩, ih others⟩

/-- Underscores may stand between the parts of an identifier. -/
theorem isIdentifier_intercalate {parts : List (List Char)}
    (each : ∀ part ∈ parts, IsIdentifier part) : IsIdentifier (['_'].intercalate parts) :=
  forall_mem_intercalate (List.forall_mem_singleton.mpr (.inr rfl)) each

/-! ### Words -/

theorem mem_of_mem_runsFrom {current run : List Char} (mem : run ∈ runsFrom current chars)
    (inside : c ∈ run) : c ∈ current ∨ c ∈ chars := by
  induction chars generalizing current with
  | nil =>
      rw [runsFrom, List.mem_singleton] at mem
      exact .inl (mem ▸ inside)
  | cons d rest ih =>
      rw [runsFrom] at mem
      split at mem
      · rcases ih mem with old | new
        · rcases List.mem_append.mp old with old | last
          · exact .inl old
          · exact .inr (List.mem_singleton.mp last ▸ List.mem_cons_self)
        · exact .inr (List.mem_cons_of_mem d new)
      · rcases List.mem_cons.mp mem with rfl | later
        · exact .inl inside
        · rcases ih later with none | new
          · exact (List.not_mem_nil none).elim
          · exact .inr (List.mem_cons_of_mem d new)

theorem mem_of_mem_wordsFrom {seen : CaseSeen} {current : List Char}
    (mem : word ∈ wordsFrom seen current chars) (inside : c ∈ word) : c ∈ current ∨ c ∈ chars := by
  fun_induction wordsFrom seen current chars with
  | case1 => exact (List.not_mem_nil mem).elim
  | case2 => grind
  | case3 => grind
  | case4 => grind
  | case5 => grind

/-- The words of a name are made of its characters. -/
theorem mem_of_mem_words {name : String} (mem : word ∈ words name) (inside : c ∈ word) :
    c ∈ name.toList := by
  obtain ⟨run, listed, mem⟩ := List.mem_flatMap.mp mem
  have inRun : c ∈ run := (mem_of_mem_wordsFrom mem inside).resolve_left List.not_mem_nil
  exact (mem_of_mem_runsFrom listed inRun).resolve_left List.not_mem_nil

theorem isIdentifier_of_mem_words {name : String} (plain : IsIdentifier name.toList)
    (mem : word ∈ words name) : IsIdentifier word :=
  fun c inside => plain c (mem_of_mem_words mem inside)

theorem IsIdentifier.lowerWord (plain : IsIdentifier word) : IsIdentifier (lowerWord word) := by
  fun_induction Text.lowerWord word with
  | case1 => exact plain
  | case2 => exact absurd (plain 'Σ' List.mem_cons_self) (by decide)
  | case3 c => exact (plain c List.mem_cons_self).toLower
  | case4 c rest _ ih =>
      obtain ⟨first, others⟩ := List.forall_mem_cons.mp plain
      exact first.toLower.append (ih others)

theorem IsIdentifier.capitalWord (plain : IsIdentifier word) : IsIdentifier (capitalWord word) := by
  cases word with
  | nil => exact plain
  | cons c rest =>
      obtain ⟨first, others⟩ := List.forall_mem_cons.mp plain
      exact first.toUpper.append (IsIdentifier.lowerWord others)

theorem isIdentifier_snakeCase {name : String} (plain : IsIdentifier name.toList) :
    IsIdentifier (snakeCase name).toList := by
  rw [snakeCase, String.toList_ofList]
  refine isIdentifier_intercalate fun part mem => ?_
  obtain ⟨word, listed, rfl⟩ := List.mem_map.mp mem
  exact (isIdentifier_of_mem_words plain listed).lowerWord

theorem isIdentifier_upperCamelCase {name : String} (plain : IsIdentifier name.toList) :
    IsIdentifier (upperCamelCase name).toList := by
  rw [upperCamelCase, String.toList_ofList, List.flatMap_def]
  refine isIdentifier_flatten fun part mem => ?_
  obtain ⟨word, listed, rfl⟩ := List.mem_map.mp mem
  exact (isIdentifier_of_mem_words plain listed).capitalWord

end EntityForge.Text

namespace EntityForge.Names

open Text

theorem mem_of_mem_cut {current chars : List Char} {word : String} {c : Char}
    (mem : word ∈ snakeWords.cut current chars) (inside : c ∈ word.toList) :
    c ∈ current ∨ c ∈ chars := by
  fun_induction snakeWords.cut current chars with
  | case1 => grind [String.toList_ofList]
  | case2 => grind [String.toList_ofList]
  | case3 => grind [String.toList_ofList]

/-- The words that a name is kept of are made of its characters. -/
theorem isIdentifier_of_mem_snakeWords {snake word : String} (plain : IsIdentifier snake.toList)
    (mem : word ∈ snakeWords snake) : IsIdentifier word.toList := by
  intro c inside
  have cut := (List.mem_filter.mp mem).1
  exact plain c ((mem_of_mem_cut cut inside).resolve_left List.not_mem_nil)

/-- **The canonical name of an identifier is one.** -/
theorem isIdentifier_canonicalName {name : String} (plain : IsIdentifier name.toList) :
    IsIdentifier (canonicalName name).toList := by
  have words : ∀ word ∈ snakeWords (snakeCase name), IsIdentifier word.toList :=
    fun _ => isIdentifier_of_mem_snakeWords (isIdentifier_snakeCase plain)
  refine isIdentifier_upperCamelCase ?_
  rw [String.toList_intercalate]
  refine isIdentifier_intercalate fun part mem => ?_
  obtain ⟨word, kept, rfl⟩ := List.mem_map.mp mem
  refine words word ?_
  split at kept
  · exact List.dropLast_subset _ kept
  · exact kept

end EntityForge.Names
