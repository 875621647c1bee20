import EntityForge.Proofs.Text.Identifiers

/-!
What names in snake case are not made of, whatever the name. A name is cut at every character that is
neither letter nor digit, so its words have none of these, and in lower case no other character
becomes one of them: names in snake case have neither slashes nor blanks. A text that is put together
around such characters has the words of its parts.
-/

namespace EntityForge.Text

variable {c : Char} {chars word : List Char}

theorem isWordChar_of_mem_runsFrom {current run : List Char}
    (clear : ∀ c ∈ current, isWordChar c = true) (mem : run ∈ runsFrom current chars) :
    ∀ c ∈ run, isWordChar c = true := by
  induction chars generalizing current with
  | nil =>
      rw [runsFrom, List.mem_singleton] at mem
      exact mem ▸ clear
  | cons d rest ih =>
      rw [runsFrom] at mem
      split at mem
      · refine ih (fun c inside => ?_) mem
        rcases List.mem_append.mp inside with old | last
        · exact clear c old
        · exact List.mem_singleton.mp last ▸ ‹_›
      · rcases List.mem_cons.mp mem with rfl | later
        · exact clear
        · exact ih (fun _ none => (List.not_mem_nil none).elim) later

/-- Words are made of letters and digits. -/
theorem isWordChar_of_mem_words {name : String} (mem : word ∈ words name) :
    ∀ c ∈ word, isWordChar c = true := by
  obtain ⟨run, listed, mem⟩ := List.mem_flatMap.mp mem
  intro c inside
  have inRun : c ∈ run := (mem_of_mem_wordsFrom mem inside).resolve_left List.not_mem_nil
  exact isWordChar_of_mem_runsFrom (fun _ none => (List.not_mem_nil none).elim) listed c inRun

theorem eq_of_ofNat_eq {n : Nat} {d : Char} (positive : 0 < d.toNat) (same : Char.ofNat n = d) :
    n = d.toNat := by
  rw [← same] at positive ⊢
  by_cases valid : n.isValidChar
  · rw [Char.ofNat, dif_pos valid]
    rfl
  · rw [Char.ofNat, dif_neg valid] at positive
    cases positive

/-- Below the lower case letters of ASCII, no other character becomes `d` in lower case. The tables
say nothing of ASCII. -/
theorem eq_of_mem_toLower {d : Char} (positive : 0 < d.toNat) (below : d.toNat < 0x61)
    (mem : d ∈ toLower c) : c = d := by
  unfold toLower at mem
  split at mem
  · rename_i ascii
    have all : ((List.range 0x80).map Char.ofNat).all
        (fun c => decide (c.toLower.toNat < 0x61 → c = c.toLower)) = true := by decide +kernel
    have listed := List.mem_map_of_mem (f := Char.ofNat) (List.mem_range.mpr ascii)
    rw [Char.ofNat_toNat] at listed
    obtain rfl := List.mem_singleton.mp mem
    exact of_decide_eq_true (List.all_eq_true.mp all c listed) below
  · unfold mapCase at mem
    split at mem
    · rename_i codes found
      have all : Tables.toLowerLong.all (fun row =>
          (row.2.map Char.ofNat).all fun d => decide (0x61 ≤ d.toNat)) = true := by decide
      obtain ⟨before, after, split, _⟩ := List.lookup_eq_some_iff.mp found
      have listed : (c.toNat, codes) ∈ Tables.toLowerLong := by
        rw [split]
        exact List.mem_append_right before List.mem_cons_self
      have above := of_decide_eq_true
        (List.all_eq_true.mp (List.all_eq_true.mp all _ listed) d mem)
      omega
    · split at mem
      · rename_i s found
        have all : Tables.toLower.all (fun s => decide (0x60 < (s.1.1 : Int) + s.2)) = true := by
          decide +kernel
        have above := of_decide_eq_true (List.all_eq_true.mp all s (List.mem_of_find?_eq_some found))
        have inside := List.find?_some found
        simp only [Span.contains, Bool.and_eq_true, decide_eq_true_eq] at inside
        have code := eq_of_ofNat_eq positive (List.mem_singleton.mp mem).symm
        omega
      · exact (List.mem_singleton.mp mem).symm

theorem notMem_lowerWord {d : Char} (positive : 0 < d.toNat) (below : d.toNat < 0x61)
    (clear : d ∉ word) : d ∉ lowerWord word := by
  fun_induction lowerWord word with
  | case1 => exact clear
  | case2 =>
      intro mem
      rw [List.mem_singleton.mp mem] at below
      exact absurd below (by decide)
  | case3 c =>
      intro mem
      exact clear (eq_of_mem_toLower positive below mem ▸ List.mem_cons_self)
  | case4 c rest _ ih =>
      rw [List.mem_cons, not_or] at clear
      rw [List.mem_append]
      rintro (first | later)
      · exact clear.1 (eq_of_mem_toLower positive below first).symm
      · exact ih clear.2 later

/-- A name in snake case is made of its words in lower case, with underscores between them. -/
theorem forall_mem_snakeCase {P : Char → Prop} {name : String} (between : P '_')
    (each : ∀ word ∈ words name, ∀ c ∈ lowerWord word, P c) : ∀ c ∈ (snakeCase name).toList, P c := by
  rw [snakeCase, String.toList_ofList]
  refine forall_mem_intercalate (List.forall_mem_singleton.mpr between) fun part mem => ?_
  obtain ⟨word, listed, rfl⟩ := List.mem_map.mp mem
  exact each word listed

/-- A character that is no part of words does not come into a name in snake case. -/
theorem notMem_snakeCase {d : Char} (positive : 0 < d.toNat) (below : d.toNat < 0x61)
    (separates : isWordChar d = false) (other : d ≠ '_') (name : String) :
    d ∉ (snakeCase name).toList := by
  have clear : ∀ c ∈ (snakeCase name).toList, c ≠ d := by
    refine forall_mem_snakeCase other.symm fun word listed c here => ?_
    rintro rfl
    refine notMem_lowerWord positive below (fun inside => ?_) here
    rw [isWordChar_of_mem_words listed c inside] at separates
    cases separates
  exact fun mem => clear d mem rfl

/-- **A name in snake case has no slash.** -/
theorem slash_notMem_snakeCase (name : String) : '/' ∉ (snakeCase name).toList :=
  notMem_snakeCase (by decide) (by decide) (by decide) (by decide) name

/-! ### Words of parts -/

section

variable {separator : Char} (separates : isWordChar separator = false)

include separates

theorem runsFrom_append_cons (current front back : List Char) :
    runsFrom current (front ++ separator :: back) = runsFrom current front ++ runsFrom [] back := by
  induction front generalizing current with
  | nil => simp [runsFrom, separates]
  | cons c front ih =>
      rw [List.cons_append, runsFrom, runsFrom]
      split
      · exact ih _
      · rw [ih, List.cons_append]

/-- A separator ends the words before it. -/
theorem words_append_cons (front back : List Char) :
    words (String.ofList (front ++ separator :: back)) =
      words (String.ofList front) ++ words (String.ofList back) := by
  simp only [words, String.toList_ofList, runsFrom_append_cons separates, List.flatMap_append]

/-- A text with separators between its parts has the words of the parts. -/
theorem words_intercalate (parts : List (List Char)) :
    words (String.ofList ([separator].intercalate parts)) =
      parts.flatMap fun part => words (String.ofList part) := by
  induction parts with
  | nil => rfl
  | cons part rest ih =>
      cases rest with
      | nil => simp
      | cons next rest =>
          have split : [separator].intercalate (part :: next :: rest) =
              part ++ separator :: [separator].intercalate (next :: rest) := by
            simp [List.intercalate_cons_cons]
          rw [split, words_append_cons separates, ih]
          rfl

end

end EntityForge.Text
