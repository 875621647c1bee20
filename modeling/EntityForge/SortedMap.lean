/-!
Maps as lists of bindings in ascending key order. Keeping the list sorted makes the list itself the
map: two maps with the same bindings are the same list, whatever the order of the insertions.
-/

namespace EntityForge.SortedMap

variable {κ ν : Type}

/-- Binds `key` to `value`, in place of an earlier binding of a key that compares equal. -/
def insert (cmp : κ → κ → Ordering) (key : κ) (value : ν) : List (κ × ν) → List (κ × ν)
  | [] => [(key, value)]
  | (k, v) :: rest =>
    match cmp key k with
    | .lt => (key, value) :: (k, v) :: rest
    | .eq => (key, value) :: rest
    | .gt => (k, v) :: insert cmp key value rest

/-- The value bound to a key that compares equal. -/
def find? (cmp : κ → κ → Ordering) (key : κ) : List (κ × ν) → Option ν
  | [] => none
  | (k, v) :: rest => if cmp key k = .eq then some v else find? cmp key rest

/-- Leaves out every binding of a key that compares equal. -/
def erase (cmp : κ → κ → Ordering) (key : κ) (map : List (κ × ν)) : List (κ × ν) :=
  map.filter fun (k, _) => cmp key k ≠ .eq

/-- The map of a list of bindings; of two bindings of one key the later holds. -/
def ofList (cmp : κ → κ → Ordering) (bindings : List (κ × ν)) : List (κ × ν) :=
  bindings.foldl (fun map (k, v) => insert cmp k v map) []

/-- A key is found in the first entry or further on. -/
theorem find?_cons {cmp : κ → κ → Ordering} [Std.LawfulEqCmp cmp] [DecidableEq κ]
    (key k : κ) (v : ν) (rest : List (κ × ν)) :
    find? cmp key ((k, v) :: rest) = if key = k then some v else find? cmp key rest := by
  simp [find?, Std.LawfulEqCmp.compare_eq_iff_eq]

/-- An insertion is seen under its own key and under no other. -/
theorem find?_insert {cmp : κ → κ → Ordering} [Std.LawfulEqCmp cmp] [DecidableEq κ]
    (key other : κ) (value : ν) (map : List (κ × ν)) :
    find? cmp other (insert cmp key value map) =
      if other = key then some value else find? cmp other map := by
  induction map with
  | nil => rw [insert, find?_cons]
  | cons entry rest ih =>
    obtain ⟨k, v⟩ := entry
    cases order : cmp key k with
    | lt => simp only [insert, order, find?_cons]
    | eq =>
      have same := Std.LawfulEqCmp.eq_of_compare order
      subst same
      simp only [insert, order, find?_cons]
      split <;> rfl
    | gt =>
      have differ : key ≠ k := fun same => by simp [same, Std.ReflCmp.compare_self] at order
      simp only [insert, order, find?_cons, ih]
      by_cases self : other = key
      · simp [self, differ]
      · simp [self]

/-- What is left out is not found, and everything else is. -/
theorem find?_erase {cmp : κ → κ → Ordering} [Std.LawfulEqCmp cmp] [DecidableEq κ]
    (key other : κ) (map : List (κ × ν)) :
    find? cmp other (erase cmp key map) = if other = key then none else find? cmp other map := by
  induction map with
  | nil => simp [erase, find?]
  | cons entry rest ih =>
    obtain ⟨k, v⟩ := entry
    by_cases same : cmp key k = .eq
    · have left : erase cmp key ((k, v) :: rest) = erase cmp key rest :=
        List.filter_cons_of_neg (by simpa using same)
      have key_eq := Std.LawfulEqCmp.eq_of_compare same
      rw [left, ih, find?_cons, key_eq]
      split <;> rfl
    · have kept : erase cmp key ((k, v) :: rest) = (k, v) :: erase cmp key rest :=
        List.filter_cons_of_pos (by simpa using same)
      have differ : k ≠ key := fun equal => same (equal ▸ Std.ReflCmp.compare_self)
      rw [kept, find?_cons, find?_cons, ih]
      by_cases found : other = k
      · simp [found, differ]
      · simp [found]

/-- A key that is not found compares equal to no key of the map. -/
theorem compare_ne_of_find? {cmp : κ → κ → Ordering} {key : κ} {map : List (κ × ν)}
    (missing : find? cmp key map = none) : ∀ entry ∈ map, cmp key entry.1 ≠ .eq := by
  induction map with
  | nil => exact fun _ mem => (List.not_mem_nil mem).elim
  | cons entry rest ih =>
    obtain ⟨k, v⟩ := entry
    rw [find?] at missing
    split at missing
    · cases missing
    · exact List.forall_mem_cons.mpr ⟨‹_›, ih missing⟩

/-- A key that compares equal to no key of the map is not found. -/
theorem find?_eq_none {cmp : κ → κ → Ordering} {key : κ} {map : List (κ × ν)}
    (differ : ∀ entry ∈ map, cmp key entry.1 ≠ .eq) : find? cmp key map = none := by
  induction map with
  | nil => rfl
  | cons entry rest ih =>
    obtain ⟨first, others⟩ := List.forall_mem_cons.mp differ
    exact (if_neg first).trans (ih others)

/-- The bindings after an insertion under a new key are the new one and the earlier ones. -/
theorem insert_perm {cmp : κ → κ → Ordering} {key : κ} (value : ν) {map : List (κ × ν)}
    (new : find? cmp key map = none) : (insert cmp key value map).Perm ((key, value) :: map) := by
  induction map with
  | nil => exact .refl _
  | cons entry rest ih =>
    obtain ⟨k, v⟩ := entry
    rw [find?] at new
    cases order : cmp key k with
    | lt => simp [insert, order]
    | eq => simp [order] at new
    | gt =>
      have missing : find? cmp key rest = none := by simpa [order] using new
      simpa [insert, order] using ((ih missing).cons (k, v)).trans (.swap _ _ _)

/-- An insertion under a new key adds a binding. -/
theorem length_insert {cmp : κ → κ → Ordering} [Std.LawfulEqCmp cmp] {key : κ} (value : ν)
    {map : List (κ × ν)} (new : find? cmp key map = none) :
    (insert cmp key value map).length = map.length + 1 :=
  (insert_perm value new).length_eq

/-- What is found is bound in the map. -/
theorem exists_mem_of_find? {cmp : κ → κ → Ordering} {key : κ} {map : List (κ × ν)} {value : ν}
    (found : find? cmp key map = some value) : ∃ k, (k, value) ∈ map := by
  induction map with
  | nil => cases found
  | cons entry rest ih =>
    obtain ⟨k, v⟩ := entry
    rw [find?] at found
    split at found
    · exact ⟨k, by simp_all⟩
    · obtain ⟨k, mem⟩ := ih found
      exact ⟨k, List.mem_cons_of_mem _ mem⟩

/-- What is found in a map is smaller than the map. -/
theorem sizeOf_lt_of_find? [SizeOf κ] [SizeOf ν] {cmp : κ → κ → Ordering} {key : κ}
    {map : List (κ × ν)} {value : ν} (found : find? cmp key map = some value) :
    sizeOf value < sizeOf map := by
  obtain ⟨k, mem⟩ := exists_mem_of_find? found
  have smaller := List.sizeOf_lt_of_mem mem
  simp only [Prod.mk.sizeOf_spec] at smaller
  omega

end EntityForge.SortedMap
