import EntityForge.SortedMap
import Mathlib.Data.List.Induction
import Mathlib.Data.List.Nodup
import Mathlib.Data.List.Perm.Subperm

/-!
Maps made of lists of bindings. Insertion keeps the keys of a map ascending, so a map has each key
once: it has as many bindings as the list that it is made of exactly if no key was bound twice there
(`length_ofList_eq_iff`), and of two bindings of one key the later is found
(`find?_ofList_eq_some_iff`).
-/

namespace EntityForge.SortedMap

variable {κ ν : Type} {cmp : κ → κ → Ordering} {key other : κ} {value : ν} {map : List (κ × ν)}

theorem mem_of_mem_insert {entry : κ × ν} (mem : entry ∈ insert cmp key value map) :
    entry = (key, value) ∨ entry ∈ map := by
  induction map with
  | nil => exact .inl (List.mem_singleton.mp mem)
  | cons first rest ih =>
      rw [insert] at mem
      split at mem
      · exact List.mem_cons.mp mem
      · rcases List.mem_cons.mp mem with here | later
        · exact .inl here
        · exact .inr (List.mem_cons_of_mem _ later)
      · rcases List.mem_cons.mp mem with here | later
        · exact .inr (here ▸ List.mem_cons_self)
        · rcases ih later with here | old
          · exact .inl here
          · exact .inr (List.mem_cons_of_mem _ old)

theorem ofList_append_singleton (before : List (κ × ν)) (last : κ × ν) :
    ofList cmp (before ++ [last]) = insert cmp last.1 last.2 (ofList cmp before) := by
  rw [ofList, List.foldl_append]
  rfl

/-- A map has no other entries than those that it is made of. -/
theorem mem_of_mem_ofList {bindings : List (κ × ν)} {entry : κ × ν}
    (mem : entry ∈ ofList cmp bindings) : entry ∈ bindings := by
  induction bindings using List.reverseRecOn with
  | nil => exact mem
  | append_singleton before last ih =>
      rw [ofList_append_singleton] at mem
      rcases mem_of_mem_insert mem with rfl | old
      · exact List.mem_append_right before List.mem_cons_self
      · exact List.mem_append_left _ (ih old)

/-- What is found is bound to a key that compares equal. -/
theorem compare_eq_of_find? (found : find? cmp key map = some value) :
    ∃ k, (k, value) ∈ map ∧ cmp key k = .eq := by
  induction map with
  | nil => cases found
  | cons entry rest ih =>
      obtain ⟨k, v⟩ := entry
      rw [find?] at found
      split at found
      · cases found
        exact ⟨k, List.mem_cons_self, ‹_›⟩
      · obtain ⟨k, mem, same⟩ := ih found
        exact ⟨k, List.mem_cons_of_mem _ mem, same⟩

/-! ### Ascending keys -/

/-- The keys of the map ascend. -/
def Sorted (cmp : κ → κ → Ordering) (map : List (κ × ν)) : Prop :=
  map.Pairwise fun first later => cmp first.1 later.1 = .lt

section

variable [Std.TransCmp cmp]

theorem Sorted.insert (sorted : Sorted cmp map) (key : κ) (value : ν) :
    Sorted cmp (insert cmp key value map) := by
  induction map with
  | nil => exact List.pairwise_singleton _ _
  | cons entry rest ih =>
      obtain ⟨k, v⟩ := entry
      obtain ⟨first, others⟩ := List.pairwise_cons.mp sorted
      rw [SortedMap.insert]
      split
      · rename_i less
        have all : ∀ later ∈ (k, v) :: rest, cmp key later.1 = .lt := by
          intro later mem
          rcases List.mem_cons.mp mem with rfl | old
          · exact less
          · exact Std.TransCmp.lt_trans less (first later old)
        exact List.pairwise_cons.mpr ⟨all, sorted⟩
      · rename_i same
        apply List.pairwise_cons.mpr
        refine ⟨?_, others⟩
        intro later mem
        exact (Std.TransCmp.congr_left same).trans (first later mem)
      · rename_i greater
        apply List.pairwise_cons.mpr
        refine ⟨?_, ih others⟩
        intro later mem
        rcases mem_of_mem_insert mem with rfl | old
        · exact Std.OrientedCmp.lt_of_gt greater
        · exact first later old

theorem sorted_ofList (bindings : List (κ × ν)) : Sorted cmp (ofList cmp bindings) := by
  induction bindings using List.reverseRecOn with
  | nil => exact List.Pairwise.nil
  | append_singleton before last ih =>
      rw [ofList_append_singleton]
      exact ih.insert last.1 last.2

/-- Keys that ascend differ. -/
theorem Sorted.nodup (sorted : Sorted cmp map) : (map.map Prod.fst).Nodup := by
  apply List.pairwise_map.mpr
  apply List.Pairwise.imp _ sorted
  intro first later less same
  have self : cmp later.1 later.1 = .eq := Std.ReflCmp.compare_self
  rw [same, self] at less
  cases less

end

/-! ### What a map holds -/

section

variable [Std.LawfulEqCmp cmp]

theorem mem_keys_insert :
    other ∈ (insert cmp key value map).map Prod.fst ↔ other = key ∨ other ∈ map.map Prod.fst := by
  induction map with
  | nil => simp [insert]
  | cons entry rest ih =>
      obtain ⟨k, v⟩ := entry
      rw [insert]
      split
      · simp
      · rename_i same
        obtain rfl := Std.LawfulEqCmp.eq_of_compare same
        simp
      · rw [List.map_cons, List.mem_cons, ih, List.map_cons, List.mem_cons]
        exact or_left_comm

theorem mem_keys_ofList {bindings : List (κ × ν)} :
    key ∈ (ofList cmp bindings).map Prod.fst ↔ key ∈ bindings.map Prod.fst := by
  induction bindings using List.reverseRecOn with
  | nil => exact Iff.rfl
  | append_singleton before last ih =>
      rw [ofList_append_singleton, mem_keys_insert, ih, List.map_append, List.mem_append,
        List.map_singleton, List.mem_singleton, or_comm]

/-- **A map has one entry for each binding exactly if the keys of the bindings differ.** -/
theorem length_ofList_eq_iff [Std.TransCmp cmp] {bindings : List (κ × ν)} :
    (ofList cmp bindings).length = bindings.length ↔ (bindings.map Prod.fst).Nodup := by
  have nodup : ((ofList cmp bindings).map Prod.fst).Nodup := (sorted_ofList bindings).nodup
  have same (key : κ) :
      key ∈ (ofList cmp bindings).map Prod.fst ↔ key ∈ bindings.map Prod.fst := mem_keys_ofList
  have lengths (map : List (κ × ν)) : (map.map Prod.fst).length = map.length := List.length_map _
  rw [← lengths, ← lengths bindings]
  constructor
  · intro all
    have inside := List.subperm_of_subset nodup fun key mem => (same key).mp mem
    exact (inside.perm_of_length_le (Nat.le_of_eq all.symm)).nodup_iff.mp nodup
  · intro differ
    exact ((List.perm_ext_iff_of_nodup nodup differ).mpr same).length_eq

/-- A look-up in a map goes through the bindings that it is made of from the last one on. -/
theorem find?_ofList [DecidableEq κ] (key : κ) (bindings : List (κ × ν)) :
    find? cmp key (ofList cmp bindings) = bindings.reverse.lookup key := by
  induction bindings using List.reverseRecOn with
  | nil => rfl
  | append_singleton before last ih =>
      rw [ofList_append_singleton, find?_insert, ih, List.reverse_append, List.reverse_singleton,
        List.singleton_append, List.lookup_cons]
      by_cases same : key = last.1
      · rw [if_pos same, beq_iff_eq.mpr same]
      · rw [if_neg same, beq_eq_false_iff_ne.mpr same]

/-- **What a map holds under a key is what the list binds it to last.** -/
theorem find?_ofList_eq_some_iff [DecidableEq κ] {bindings : List (κ × ν)} :
    find? cmp key (ofList cmp bindings) = some value ↔
      ∃ before after, bindings = before ++ (key, value) :: after ∧ key ∉ after.map Prod.fst := by
  have differ_iff (after : List (κ × ν)) :
      key ∉ after.map Prod.fst ↔ ∀ entry ∈ after, (key != entry.1) = true := by
    rw [List.mem_map]
    grind
  rw [find?_ofList, List.lookup_eq_some_iff]
  constructor
  · rintro ⟨later, earlier, split, differ⟩
    refine ⟨earlier.reverse, later.reverse, ?_, (differ_iff _).mpr fun entry mem => ?_⟩
    · simpa using congrArg List.reverse split
    · exact differ entry (List.mem_reverse.mp mem)
  · rintro ⟨before, after, rfl, differ⟩
    refine ⟨after.reverse, before.reverse, by simp, fun entry mem => ?_⟩
    exact (differ_iff _).mp differ entry (List.mem_reverse.mp mem)

/-- The last binding of a key in a list binds it to a value. -/
def FinallyBinds (bindings : List (κ × ν)) (key : κ) (value : ν) : Prop :=
  ∃ before after, bindings = before ++ (key, value) :: after ∧ key ∉ after.map Prod.fst

section

variable [DecidableEq κ]

/-- What a map with ascending keys holds is found. -/
theorem Sorted.mem_iff (sorted : Sorted cmp map) :
    (key, value) ∈ map ↔ find? cmp key map = some value := by
  constructor
  · intro mem
    induction map with
    | nil => exact (List.not_mem_nil mem).elim
    | cons entry rest ih =>
        obtain ⟨k, v⟩ := entry
        obtain ⟨first, others⟩ := List.pairwise_cons.mp sorted
        rw [find?_cons]
        rcases List.mem_cons.mp mem with here | later
        · cases here
          exact if_pos rfl
        · rw [if_neg, ih others later]
          rintro rfl
          have self : cmp key key = .eq := Std.ReflCmp.compare_self
          cases self.symm.trans (first _ later)
  · intro found
    obtain ⟨k, mem, same⟩ := compare_eq_of_find? found
    obtain rfl := Std.LawfulEqCmp.eq_of_compare same
    exact mem

variable [Std.TransCmp cmp] {map' : List (κ × ν)}

/-- Maps with ascending keys in which the same is found are equal. -/
theorem Sorted.ext (sorted : Sorted cmp map) (sorted' : Sorted cmp map')
    (same : ∀ key, find? cmp key map = find? cmp key map') : map = map' := by
  have mem_iff (entry : κ × ν) : entry ∈ map ↔ entry ∈ map' := by
    rw [sorted.mem_iff, sorted'.mem_iff, same]
  have perm : map.Perm map' :=
    (List.perm_ext_iff_of_nodup sorted.nodup.of_map sorted'.nodup.of_map).mpr mem_iff
  refine perm.eq_of_pairwise (fun first later _ _ less greater => ?_) sorted sorted'
  rw [Std.OrientedCmp.gt_of_lt less] at greater
  cases greater

/-- **Two lists of bindings make the same map exactly if they bind the same in the end.** -/
theorem ofList_eq_iff {bindings bindings' : List (κ × ν)} :
    ofList cmp bindings = ofList cmp bindings' ↔
      ∀ key value, FinallyBinds bindings key value ↔ FinallyBinds bindings' key value := by
  have found (list : List (κ × ν)) (key : κ) (value : ν) :
      find? cmp key (ofList cmp list) = some value ↔ FinallyBinds list key value :=
    find?_ofList_eq_some_iff
  constructor
  · intro same key value
    rw [← found bindings, ← found bindings', same]
  · intro same
    refine (sorted_ofList _).ext (sorted_ofList _) fun key => Option.ext fun value => ?_
    rw [found, found, same]

end

end

end EntityForge.SortedMap
