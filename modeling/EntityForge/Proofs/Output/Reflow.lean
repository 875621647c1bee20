import EntityForge.Proofs.Output.Lines

/-!
Lines that become lines of another source (`flatLines`). A line without line ends stays whole. Any other
one falls apart; then the line ends inside it lose a return before them and gain an indentation after
them, and nothing else changes (`Reflowed`). So a block becomes a block of reflowed lines
(`exists_written_block`), and in a line with texts that have no line ends around it, only the content is
reflowed (`Encloses.exists_content`).
-/

namespace EntityForge.Source

/-! ### Lines of lines -/

/-- A line end at the end of a text ends its last line. -/
theorem cutLines_append (current line rest : List Char) :
    cutLines current (line ++ '\n' :: rest) =
      cutLines current (line ++ ['\n']) ++ cutLines [] rest := by
  induction line generalizing current with
  | nil => simp [cutLines]
  | cons c line ih =>
      rw [List.cons_append, List.cons_append, cutLines, cutLines]
      split
      · rw [ih, List.cons_append]
      · exact ih _

/-- The lines that a written line becomes. -/
def relined (line : String) : Source :=
  ((cutLines [] (line.toList ++ ['\n'])).map String.ofList).map .plain

theorem cutLines_flatMap (lines : List String) :
    cutLines [] (lines.flatMap fun line => line.toList ++ ['\n']) =
      lines.flatMap fun line => cutLines [] (line.toList ++ ['\n']) := by
  induction lines with
  | nil => rfl
  | cons line rest ih =>
      rw [List.flatMap_cons, List.append_assoc, List.singleton_append, cutLines_append, ih,
        List.flatMap_cons]

theorem balanced_relined (line : String) : Balanced (relined line) := balanced_map_plain _

/-- The written lines of a source become lines of another one, each by itself. -/
theorem flatLines_eq (source : Source) : source.flatLines = (rendered 0 source).flatMap relined := by
  rw [flatLines, text_eq, toList_written, cutLines_flatMap, List.map_flatMap]
  refine List.flatMap_congr fun line _ => ?_
  rw [relined, List.map_map]
  rfl

theorem balanced_flatLines (source : Source) : Balanced source.flatLines :=
  flatLines_eq source ▸ .flatMap fun line _ => balanced_relined line

/-- A text inside a line that became several lines: each line end may have lost a return before it and
may be followed by an indentation. -/
inductive Reflowed : List Char → List Char → Prop where
  | nil : Reflowed [] []
  | keep {c : Char} {text shown : List Char} : c ≠ '\n' → Reflowed text shown →
      Reflowed (c :: text) (c :: shown)
  | drop {text shown : List Char} : Reflowed ('\n' :: text) shown →
      Reflowed ('\r' :: '\n' :: text) shown
  | indent {text shown pad : List Char} : (∀ c ∈ pad, c = ' ') → Reflowed text shown →
      Reflowed ('\n' :: text) ('\n' :: (pad ++ shown))

namespace Reflowed

variable {text shown front back : List Char}

/-- A text without line ends is shown as it is. -/
theorem eq_of_notMem (reflowed : Reflowed text shown) (single : '\n' ∉ text) : shown = text := by
  induction reflowed with
  | nil => rfl
  | keep _ _ ih => rw [ih fun mem => single (List.mem_cons_of_mem _ mem)]
  | drop _ _ => exact absurd (by simp) single
  | indent _ _ _ => exact absurd (by simp) single

/-- A line end is shown. -/
theorem newline_mem (reflowed : Reflowed text shown) (mem : '\n' ∈ text) : '\n' ∈ shown := by
  induction reflowed with
  | nil => exact mem
  | keep other _ ih =>
      rcases List.mem_cons.mp mem with same | later
      · exact absurd same.symm other
      · exact List.mem_cons_of_mem _ (ih later)
  | drop _ ih => exact ih List.mem_cons_self
  | indent _ _ _ => exact List.mem_cons_self

theorem refl (text : List Char) : Reflowed text text := by
  induction text with
  | nil => exact .nil
  | cons c rest ih =>
      by_cases same : c = '\n'
      · subst same
        exact .indent (fun _ mem => (List.not_mem_nil mem).elim) ih
      · exact .keep same ih

/-- The parts of a text are shown one after the other where no line end is parted from what is before
it. -/
theorem of_append (reflowed : Reflowed (front ++ back) shown) (whole : back.head? ≠ some '\n') :
    ∃ first last, shown = first ++ last ∧ Reflowed front first ∧ Reflowed back last := by
  generalize same : front ++ back = text at reflowed
  induction reflowed generalizing front with
  | nil =>
      obtain ⟨rfl, rfl⟩ := List.append_eq_nil_iff.mp same
      exact ⟨[], [], rfl, .nil, .nil⟩
  | keep other rest ih =>
      rcases List.append_eq_cons_iff.mp same with ⟨rfl, rfl⟩ | ⟨front, rfl, tail⟩
      · exact ⟨[], _, rfl, .nil, .keep other rest⟩
      · obtain ⟨first, last, rfl, fronts, backs⟩ := ih tail.symm
        exact ⟨_ :: first, last, rfl, .keep other fronts, backs⟩
  | drop rest ih =>
      rcases List.append_eq_cons_iff.mp same with ⟨rfl, rfl⟩ | ⟨front, rfl, tail⟩
      · exact ⟨[], _, rfl, .nil, .drop rest⟩
      · rcases List.append_eq_cons_iff.mp tail.symm with ⟨rfl, rfl⟩ | ⟨front, rfl, _⟩
        · exact absurd rfl whole
        · obtain ⟨first, last, rfl, fronts, backs⟩ := ih tail.symm
          exact ⟨first, last, rfl, .drop fronts, backs⟩
  | indent blank rest ih =>
      rcases List.append_eq_cons_iff.mp same with ⟨rfl, rfl⟩ | ⟨front, rfl, tail⟩
      · exact absurd rfl whole
      · obtain ⟨first, last, rfl, fronts, backs⟩ := ih tail.symm
        exact ⟨_ :: (_ ++ first), last, by simp, .indent blank fronts, backs⟩

theorem of_cons {c : Char} (reflowed : Reflowed (c :: text) shown) (line : c ≠ '\n')
    (ret : c ≠ '\r') : ∃ rest, shown = c :: rest ∧ Reflowed text rest := by
  generalize same : c :: text = all at reflowed
  cases reflowed with
  | nil => cases same
  | keep _ rest =>
      cases same
      exact ⟨_, rfl, rest⟩
  | drop _ =>
      cases same
      exact absurd rfl ret
  | indent _ _ =>
      cases same
      exact absurd rfl line

/-- A text without returns and line ends before others is shown as it is. -/
theorem of_plain (reflowed : Reflowed (front ++ back) shown)
    (plain : ∀ c ∈ front, c ≠ '\n' ∧ c ≠ '\r') :
    ∃ last, shown = front ++ last ∧ Reflowed back last := by
  induction front generalizing shown with
  | nil => exact ⟨shown, rfl, reflowed⟩
  | cons c front ih =>
      obtain ⟨⟨line, ret⟩, plain⟩ := List.forall_mem_cons.mp plain
      obtain ⟨rest, rfl, later⟩ := of_cons reflowed line ret
      obtain ⟨last, rfl, backs⟩ := ih later plain
      exact ⟨last, rfl, backs⟩

theorem keep_append (single : '\n' ∉ front) (reflowed : Reflowed text shown) :
    Reflowed (front ++ text) (front ++ shown) := by
  induction front with
  | nil => exact reflowed
  | cons c front ih =>
      obtain ⟨other, single⟩ := not_or.mp (List.mem_cons.not.mp single)
      exact .keep (Ne.symm other) (ih single)

/-- A line end after a part of a line, which loses a return at its end. -/
theorem keep_line {pad : List Char} (single : '\n' ∉ front) (blank : ∀ c ∈ pad, c = ' ')
    (reflowed : Reflowed text shown) :
    Reflowed (front ++ '\n' :: text)
      ((if front.getLast? = some '\r' then front.dropLast else front) ++ '\n' :: (pad ++ shown)) := by
  split
  · next ret =>
    obtain ⟨front, rfl⟩ := List.getLast?_eq_some_iff.mp ret
    rw [List.dropLast_concat, List.append_assoc]
    exact keep_append (fun mem => single (List.mem_append_left _ mem)) (.drop (.indent blank reflowed))
  · exact keep_append single (.indent blank reflowed)

end Reflowed

theorem toList_indented (depth : Nat) {content : String} (nonempty : content ≠ "") :
    (indented depth content).toList = List.replicate (4 * depth) ' ' ++ content.toList := by
  simp [indented, nonempty]

/-- The lines that a rest of a line becomes, behind the part that is read already. -/
theorem exists_reflowed (current line : List Char) (single : '\n' ∉ current)
    (ends : (current ++ line).getLast? ≠ some '\r') :
    ∃ pad shown, (∀ c ∈ pad, c = ' ') ∧ Reflowed (current ++ line) shown ∧
      ((cutLines current (line ++ ['\n'])).flatMap fun piece =>
        (indented 1 (String.ofList piece)).toList ++ ['\n']) = pad ++ shown ++ ['\n'] ∧
      ((∃ c ∈ current, c ≠ '\r') → pad = List.replicate 4 ' ') := by
  -- a piece that holds more than a return is indented
  have piece : ∀ chars : List Char, ∃ pad, (∀ c ∈ pad, c = ' ') ∧
      (indented 1 (String.ofList chars)).toList = pad ++ chars ∧
      (chars ≠ [] → pad = List.replicate 4 ' ') := by
    intro chars
    by_cases empty : chars = []
    · subst empty
      exact ⟨[], by simp, by simp [indented], fun nonempty => absurd rfl nonempty⟩
    · have other : String.ofList chars ≠ "" := fun same =>
        empty (by simpa using congrArg String.toList same)
      refine ⟨List.replicate 4 ' ', fun c mem => List.eq_of_mem_replicate mem, ?_, fun _ => rfl⟩
      rw [toList_indented 1 other, String.toList_ofList]
  induction line generalizing current with
  | nil =>
      rw [List.append_nil] at ends
      obtain ⟨pad, blank, same, full⟩ := piece current
      refine ⟨pad, current, blank, by simpa using .refl current, ?_, fun ⟨c, mem, _⟩ => ?_⟩
      · simp [cutLines, ends, same]
      · exact full (List.ne_nil_of_mem mem)
  | cons c line ih =>
      rw [List.cons_append, cutLines]
      split
      · next same =>
        subst same
        have ends' : ([] ++ line).getLast? ≠ some '\r' := by
          cases line with
          | nil => simp
          | cons d line => simpa using ends
        obtain ⟨pad', shown', blank', reflowed, lines, _⟩ := ih [] (by simp) ends'
        obtain ⟨pad, blank, same, full⟩ :=
          piece (if current.getLast? = some '\r' then current.dropLast else current)
        refine ⟨pad, _, blank, reflowed.keep_line single blank', ?_, fun ⟨c, mem, other⟩ => full ?_⟩
        · rw [List.flatMap_cons, lines, same]
          simp
        · split
          · next ret =>
            obtain ⟨front, rfl⟩ := List.getLast?_eq_some_iff.mp ret
            rw [List.dropLast_concat]
            have inside : c ∈ front := by simpa [other] using mem
            exact List.ne_nil_of_mem inside
          · exact List.ne_nil_of_mem mem
      · next other =>
        have all : current ++ c :: line = (current ++ [c]) ++ line := by simp
        rw [all] at ends ⊢
        obtain ⟨pad, shown, blank, reflowed, lines, full⟩ :=
          ih (current ++ [c]) (by simp [single, Ne.symm other]) ends
        refine ⟨pad, shown, blank, reflowed, lines, fun ⟨d, mem, plain⟩ => full ⟨d, ?_, plain⟩⟩
        exact List.mem_append_left _ mem

/-- A content that starts with a character of its line and does not end in a return. -/
def Framed (content : String) : Prop :=
  (∃ c rest, content.toList = c :: rest ∧ c ≠ '\n' ∧ c ≠ '\r') ∧
    content.toList.getLast? ≠ some '\r'

/-- A line becomes lines that are written like one, apart from what is reflowed. -/
theorem exists_written_relined {content : String} (framed : Framed content) (depth : Nat) :
    ∃ shown : String, Reflowed content.toList shown.toList ∧
      written 1 (relined (indented depth content)) = written (depth + 1) [.plain shown] := by
  obtain ⟨⟨c, rest, chars, line, ret⟩, ends⟩ := framed
  have nonempty : content ≠ "" := fun same => by simp [same] at chars
  have blanks : ∀ c ∈ List.replicate (4 * depth) ' ', c ≠ '\n' ∧ c ≠ '\r' := by
    intro c mem
    rw [List.eq_of_mem_replicate mem]
    decide
  have all := toList_indented depth nonempty
  -- the first character of the line is read, so the line is indented
  obtain ⟨d, tail, first, plain⟩ : ∃ d tail, (indented depth content).toList = d :: tail ∧
      d ≠ '\n' ∧ d ≠ '\r' := by
    rw [all, chars]
    cases depth with
    | zero => exact ⟨c, rest, rfl, line, ret⟩
    | succ depth => exact ⟨' ', _, rfl, by decide, by decide⟩
  have ends' : ([d] ++ tail).getLast? ≠ some '\r' := by
    rw [List.singleton_append, ← first, all, List.getLast?_append_of_ne_nil _ (by simp [chars])]
    exact ends
  obtain ⟨pad, shown, _, reflowed, lines, full⟩ :=
    exists_reflowed [d] tail (by simpa using Ne.symm plain.1) ends'
  obtain rfl := full ⟨d, List.mem_cons_self, plain.2⟩
  rw [List.singleton_append, ← first, all] at reflowed
  obtain ⟨shown, rfl, within⟩ := reflowed.of_plain blanks
  refine ⟨String.ofList shown, by rwa [String.toList_ofList], ?_⟩
  have other : String.ofList shown ≠ "" := by
    rw [chars] at within
    obtain ⟨later, rfl, _⟩ := within.of_cons line ret
    intro same
    have empty := congrArg String.toList same
    simp at empty
  apply String.toList_inj.mp
  have cut : cutLines [] ((indented depth content).toList ++ ['\n']) =
      cutLines [d] (tail ++ ['\n']) := by
    rw [first, List.cons_append, cutLines, if_neg plain.1, List.nil_append]
  rw [toList_written, relined, rendered_map_plain, List.flatMap_map, List.flatMap_map, cut, lines,
    toList_written, rendered, rendered, List.flatMap_singleton, toList_indented _ other,
    String.toList_ofList, ← List.append_assoc, List.replicate_append_replicate]
  congr 3
  omega

theorem exists_written_lines {contents : List String} (each : ∀ content ∈ contents, Framed content)
    (depth : Nat) :
    ∃ contents' : List String,
      List.Forall₂ (fun content shown => Reflowed content.toList shown.toList) contents contents' ∧
      written 1 ((contents.map (indented depth)).flatMap relined) =
        written (depth + 1) (contents'.map .plain) := by
  induction contents with
  | nil => exact ⟨[], .nil, rfl⟩
  | cons content rest ih =>
      obtain ⟨framed, each⟩ := List.forall_mem_cons.mp each
      obtain ⟨shown, reflowed, first⟩ := exists_written_relined framed depth
      obtain ⟨contents', others, lines⟩ := ih each
      refine ⟨shown :: contents', .cons reflowed others, ?_⟩
      rw [List.map_cons, List.flatMap_cons, written_append (balanced_relined _), first, lines,
        ← written_append (balanced_nil.plain shown)]
      rfl

/-- The lines of a block that became lines of another source are written like the block itself, apart
from what is reflowed. -/
theorem exists_written_block {header : String} {contents : List String} (framed : Framed header)
    (each : ∀ content ∈ contents, Framed content) :
    ∃ (header' : String) (contents' : List String), Reflowed header.toList header'.toList ∧
      List.Forall₂ (fun content shown => Reflowed content.toList shown.toList) contents contents' ∧
      written 1 (Source.block header (contents.map .plain)).flatLines =
        written 1 (Source.block header' (contents'.map .plain)) := by
  obtain ⟨header', shown, first⟩ := exists_written_relined framed 0
  obtain ⟨contents', reflowed, lines⟩ := exists_written_lines each 1
  refine ⟨header', contents', shown, reflowed, ?_⟩
  have balanced := balanced_map_plain contents
  have balanced' := balanced_map_plain contents'
  have lines' : rendered 0 (Source.block header (contents.map .plain)) =
      indented 0 header :: (contents.map (indented 1) ++ [indented 0 "\x7d"]) := by
    rw [← List.append_nil (Source.block header _), rendered_block balanced, rendered_map_plain]
    rfl
  have last : written 1 (relined (indented 0 "\x7d")) = indented 1 "\x7d" ++ "\n" := by decide +kernel
  rw [flatLines_eq, lines', List.flatMap_cons, List.flatMap_append, List.flatMap_singleton,
    written_append (balanced_relined _),
    written_append (.flatMap fun line _ => balanced_relined line), first, lines, last,
    ← List.append_nil (Source.block header' _), written, written, written, rendered_block balanced']
  simp [rendered, String.append_assoc]

/-! ### Texts in reflowed lines -/

/-- A text without line ends and returns, which stays as it is in a reflowed line. -/
def Unbroken (s : String) : Prop := ∀ c ∈ s.toList, c ≠ '\n' ∧ c ≠ '\r'

instance (s : String) : Decidable (Unbroken s) := List.decidableBAll _ s.toList

namespace Unbroken

variable {s front back shown : String}

theorem append (fronts : Unbroken front) (backs : Unbroken back) : Unbroken (front ++ back) := by
  intro c mem
  rw [String.toList_append, List.mem_append] at mem
  exact mem.elim (fronts c) (backs c)

theorem head?_ne (unbroken : Unbroken s) : s.toList.head? ≠ some '\n' :=
  fun first => (unbroken _ (List.mem_of_head? first)).1 rfl

theorem number (n : Nat) : Unbroken (toString n) := by
  intro c mem
  have chars : (toString n).toList = Nat.toDigits 10 n := Nat.toList_repr
  have digit := Nat.isDigit_of_mem_toDigits (by decide) (by decide) (chars ▸ mem)
  constructor
  all_goals
    rintro rfl
    exact absurd digit (by decide)

/-- What follows an unbroken text is reflowed by itself. -/
theorem exists_rest (fronts : Unbroken front)
    (reflowed : Reflowed (front ++ back).toList shown.toList) :
    ∃ last : String, Reflowed back.toList last.toList ∧ shown = front ++ last := by
  rw [String.toList_append] at reflowed
  obtain ⟨last, chars, backs⟩ := reflowed.of_plain fronts
  refine ⟨String.ofList last, by rwa [String.toList_ofList], String.toList_inj.mp ?_⟩
  rw [chars, String.toList_append, String.toList_ofList]

theorem eq_of_reflowed (unbroken : Unbroken s) (reflowed : Reflowed s.toList shown.toList) :
    shown = s :=
  String.toList_inj.mp (reflowed.eq_of_notMem fun mem => (unbroken _ mem).1 rfl)

end Unbroken

/-- Texts that are put together are reflowed by themselves where no line end stands at the start of the
second one. -/
theorem exists_reflowed_parts {front back shown : String}
    (reflowed : Reflowed (front ++ back).toList shown.toList)
    (whole : back.toList.head? ≠ some '\n') :
    ∃ first last : String, Reflowed front.toList first.toList ∧ Reflowed back.toList last.toList ∧
      shown = first ++ last := by
  rw [String.toList_append] at reflowed
  obtain ⟨first, last, chars, fronts, backs⟩ := reflowed.of_append whole
  refine ⟨String.ofList first, String.ofList last, by rwa [String.toList_ofList],
    by rwa [String.toList_ofList], String.toList_inj.mp ?_⟩
  rw [chars, String.toList_append, String.toList_ofList, String.toList_ofList]

/-- The line has its content between unbroken texts. -/
def Encloses (line : String → String) : Prop :=
  ∃ front back, (Unbroken front ∧ front ≠ "") ∧ (Unbroken back ∧ back ≠ "") ∧
    ∀ content, line content = front ++ content ++ back

namespace Encloses

variable {line : String → String}

theorem framed (encloses : Encloses line) (content : String) : Framed (line content) := by
  obtain ⟨front, back, ⟨fronts, starts⟩, ⟨backs, ends⟩, same⟩ := encloses
  obtain ⟨c, rest, first⟩ := List.exists_cons_of_ne_nil (String.toList_eq_nil_iff.not.mpr starts)
  rw [same]
  refine ⟨⟨c, rest ++ content.toList ++ back.toList, ?_, fronts c (first ▸ List.mem_cons_self)⟩, ?_⟩
  · rw [String.toList_append, String.toList_append, first, List.cons_append, List.cons_append]
  · rw [String.toList_append, List.getLast?_append_of_ne_nil _ (String.toList_eq_nil_iff.not.mpr ends)]
    exact fun last => (backs _ (List.mem_of_getLast? last)).2 rfl

/-- Only the content of a line is reflowed. -/
theorem exists_content (encloses : Encloses line) {content shown : String}
    (reflowed : Reflowed (line content).toList shown.toList) :
    ∃ content' : String, Reflowed content.toList content'.toList ∧ shown = line content' := by
  obtain ⟨front, back, ⟨fronts, _⟩, ⟨backs, _⟩, same⟩ := encloses
  rw [same, String.append_assoc] at reflowed
  obtain ⟨rest, rests, rfl⟩ := fronts.exists_rest reflowed
  obtain ⟨content', last, within, lasts, rfl⟩ := exists_reflowed_parts rests backs.head?_ne
  obtain rfl := backs.eq_of_reflowed lasts
  exact ⟨content', within, by rw [same, String.append_assoc]⟩

end Encloses

end EntityForge.Source
