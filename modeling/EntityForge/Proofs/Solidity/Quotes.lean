import EntityForge.Proofs.Output.Reflow
import EntityForge.Solidity.Syntax

/-!
Reading quoted texts. A reader goes from the opening quote to the closing one and takes a backslash
away from before a backslash or a quote. It gives back what was quoted (`readQuoted_quote`). Quoting
keeps line ends, so a quoted text that is reflowed is the quote of the reflowed text
(`exists_quote_of_reflowed`), and a text reaches its place on one line exactly if it has no line end
(`legible_of_reflowed`).
-/

namespace EntityForge.Solidity

/-- Reads to the closing quote, after a backslash or not; gives the text and what follows. -/
def readQuotedRest : Bool → List Char → Option (List Char × List Char)
  | _, [] => none
  | true, c :: rest =>
    if c = '\\' ∨ c = '"' then (readQuotedRest false rest).map (Prod.map (c :: ·) id) else none
  | false, c :: rest =>
    if c = '"' then some ([], rest)
    else if c = '\\' then readQuotedRest true rest
    else (readQuotedRest false rest).map (Prod.map (c :: ·) id)

/-- Reads a quoted text from its opening quote. -/
def readQuoted : List Char → Option (List Char × List Char)
  | '"' :: rest => readQuotedRest false rest
  | _ => none

/-- A character as it is quoted. -/
def escaped (c : Char) : List Char := if c = '\\' ∨ c = '"' then ['\\', c] else [c]

theorem toList_quote (s : String) :
    (quote s).toList = '"' :: s.toList.flatMap escaped ++ ['"'] := by
  rw [quote, String.toList_ofList]
  rfl

/-- **A quoted text is read back as it was,** whatever follows. -/
theorem readQuoted_quote (s : String) (after : List Char) :
    readQuoted ((quote s).toList ++ after) = some (s.toList, after) := by
  have rest : ∀ chars : List Char, readQuotedRest false
      (chars.flatMap escaped ++ '"' :: after) = some (chars, after) := by
    intro chars
    induction chars with
    | nil => rfl
    | cons c chars ih =>
        rw [List.flatMap_cons, escaped]
        split
        · next special => simp [readQuotedRest, special, ih]
        · next plain =>
          obtain ⟨noEscape, noQuote⟩ := not_or.mp plain
          simp [readQuotedRest, noEscape, noQuote, ih]
  rw [toList_quote, List.cons_append, List.cons_append, List.append_assoc]
  exact rest s.toList

/-- Quoting keeps line ends. -/
theorem newline_mem_quote_iff (s : String) : '\n' ∈ (quote s).toList ↔ '\n' ∈ s.toList := by
  have inside : ∀ c, '\n' ∈ escaped c ↔ c = '\n' := by
    intro c
    unfold escaped
    split
    · next special => rcases special with rfl | rfl <;> decide
    · rw [List.mem_singleton, eq_comm]
  simp [toList_quote, List.mem_flatMap, inside]

/-! ### Quoted texts in reflowed lines -/

open Source (Reflowed)

/-- What starts with a line end once it is escaped starts with one before. -/
theorem exists_cons_of_escaped {chars rest : List Char}
    (first : chars.flatMap escaped ++ ['"'] = '\n' :: rest) : ∃ chars', chars = '\n' :: chars' := by
  cases chars with
  | nil => cases first
  | cons c chars =>
      rw [List.flatMap_cons, escaped] at first
      split at first
      · cases first
      · obtain rfl := (List.cons.inj first).1
        exact ⟨chars, rfl⟩

theorem exists_escaped_of_reflowed {chars shown : List Char}
    (reflowed : Reflowed (chars.flatMap escaped ++ ['"']) shown) :
    ∃ text, Reflowed chars text ∧ shown = text.flatMap escaped ++ ['"'] := by
  induction chars generalizing shown with
  | nil =>
      obtain ⟨rest, rfl, later⟩ := reflowed.of_cons (by decide) (by decide)
      cases later
      exact ⟨[], .nil, rfl⟩
  | cons c chars ih =>
      by_cases special : c = '\\' ∨ c = '"'
      · have both : escaped c = ['\\', c] := if_pos special
        have plain : ∀ d ∈ ['\\', c], d ≠ '\n' ∧ d ≠ '\r' := by
          rcases special with rfl | rfl <;> simp
        rw [List.flatMap_cons, both, List.append_assoc] at reflowed
        obtain ⟨rest, rfl, later⟩ := reflowed.of_plain plain
        obtain ⟨text, within, rfl⟩ := ih later
        exact ⟨c :: text, .keep (plain c (by simp)).1 within, by simp [both]⟩
      · have alone : escaped c = [c] := if_neg special
        rw [List.flatMap_cons, alone] at reflowed
        generalize same : [c] ++ chars.flatMap escaped ++ ['"'] = all at reflowed
        cases reflowed with
        | nil => cases same
        | keep other rest =>
            cases same
            obtain ⟨text, within, rfl⟩ := ih rest
            exact ⟨c :: text, .keep other within, by simp [alone]⟩
        | @indent _ _ pad blank rest =>
            cases same
            obtain ⟨text, within, rfl⟩ := ih rest
            have blanks : pad.flatMap escaped = pad := by
              rw [List.flatMap_congr fun c mem => show escaped c = [c] by rw [blank c mem]; rfl,
                List.flatMap_singleton']
            exact ⟨'\n' :: (pad ++ text), .indent blank within, by simp [alone, blanks]⟩
        | drop rest =>
            obtain ⟨rfl, first⟩ := List.cons.inj same
            obtain ⟨text, within, rfl⟩ := ih (first ▸ rest)
            obtain ⟨chars, rfl⟩ := exists_cons_of_escaped first
            exact ⟨text, .drop within, rfl⟩

/-- A quoted text that is reflowed is the quote of the reflowed text. -/
theorem exists_quote_of_reflowed {s cell : String} (reflowed : Reflowed (quote s).toList cell.toList) :
    ∃ shown : String, Reflowed s.toList shown.toList ∧ cell = quote shown := by
  rw [toList_quote, List.cons_append] at reflowed
  obtain ⟨rest, chars, later⟩ := reflowed.of_cons (by decide) (by decide)
  obtain ⟨text, within, rfl⟩ := exists_escaped_of_reflowed later
  refine ⟨String.ofList text, by rwa [String.toList_ofList], String.toList_inj.mp ?_⟩
  rw [chars, toList_quote, String.toList_ofList, List.cons_append]

/-- How a literal gives a string. It is read to its closing quote, and gives the string unless the
string has line ends, which are reflowed; exactly then the literal is not on one line. -/
structure Legible (s cell : String) : Prop where
  single_iff : '\n' ∉ cell.toList ↔ '\n' ∉ s.toList
  reads : '\n' ∉ s.toList → ∀ after, readQuoted (cell.toList ++ after) = some (s.toList, after)
  reflowed : ∃ shown : String, Reflowed s.toList shown.toList ∧
    ∀ after, readQuoted (cell.toList ++ after) = some (shown.toList, after)

/-- **A string is legible where its literal is reflowed.** -/
theorem legible_of_reflowed {s cell : String} (reflowed : Reflowed (quote s).toList cell.toList) :
    Legible s cell := by
  obtain ⟨shown, within, rfl⟩ := exists_quote_of_reflowed reflowed
  have same : '\n' ∉ s.toList → shown = s := fun single =>
    String.toList_inj.mp (within.eq_of_notMem single)
  refine ⟨not_congr ?_, fun single after => ?_, shown, within, readQuoted_quote shown⟩
  · rw [newline_mem_quote_iff]
    refine ⟨fun mem => by_contra fun single => ?_, within.newline_mem⟩
    exact single (same single ▸ mem)
  · rw [same single, readQuoted_quote]

end EntityForge.Solidity
