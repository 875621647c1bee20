import EntityForge.Proofs.SortedMaps
import EntityForge.Proofs.Value.Order

/-!
What the order of values gives. It is total and tells values apart, and it decides on lists, maps and
records by the first parts that differ. So there is one way to put values into order, and a map or a
record is the same whatever the order in which it was filled (`compare_canonical`).
-/

namespace EntityForge

/-- A total order in which only equal items compare equal. -/
structure OrdersTotally {α : Type} (cmp : α → α → Ordering) : Prop where
  refl : ∀ a, (cmp a a).isLE
  antisymm : ∀ a b, (cmp a b).isLE → (cmp b a).isLE → a = b
  trans : ∀ a b c, (cmp a b).isLE → (cmp b c).isLE → (cmp a c).isLE
  total : ∀ a b, (cmp a b).isLE ∨ (cmp b a).isLE
  swap : ∀ a b, cmp b a = (cmp a b).swap
  eq_iff : ∀ a b, cmp a b = .eq ↔ a = b

section

variable {α : Type} (cmp : α → α → Ordering) [Std.TransCmp cmp] [Std.LawfulEqCmp cmp]

/-- A lawful comparison is a total order. -/
theorem ordersTotally_of_lawful : OrdersTotally cmp where
  refl a := Ordering.isLE_of_eq_eq Std.ReflCmp.compare_self
  antisymm a b less greater :=
    Std.LawfulEqCmp.eq_of_compare (Std.OrientedCmp.isLE_antisymm less greater)
  trans a b c := Std.TransCmp.isLE_trans
  total a b := by
    have swapped : cmp b a = (cmp a b).swap := Std.OrientedCmp.eq_swap
    rw [swapped]
    cases cmp a b <;> decide
  swap a b := Std.OrientedCmp.eq_swap
  eq_iff a b := Std.LawfulEqCmp.compare_eq_iff_eq

end

namespace Value

/-! ### Parts of values -/

/-- Pairs are compared by their first parts and then by their second parts. -/
def comparePairs {α β : Type} (cmp : α → α → Ordering) (cmp' : β → β → Ordering) (x y : α × β) :
    Ordering :=
  (cmp x.1 y.1).then (cmp' x.2 y.2)

theorem compareItems_eq (as bs : List Value) : compareItems as bs = as.compareLex compare bs := by
  induction as generalizing bs with
  | nil => cases bs <;> rfl
  | cons a as ih =>
      cases bs with
      | nil => rfl
      | cons b bs => rw [compareItems, List.compareLex_cons_cons, ih]

theorem compareEntries_eq (as bs : List (Value × Value)) :
    compareEntries as bs = as.compareLex (comparePairs compare compare) bs := by
  induction as generalizing bs with
  | nil => cases bs <;> rfl
  | cons a as ih =>
      cases bs with
      | nil => rfl
      | cons b bs => rw [compareEntries, List.compareLex_cons_cons, ih, comparePairs]

theorem compareFields_eq (as bs : List (String × Value)) :
    compareFields as bs = as.compareLex (comparePairs Ord.compare compare) bs := by
  induction as generalizing bs with
  | nil => cases bs <;> rfl
  | cons a as ih =>
      cases bs with
      | nil => rfl
      | cons b bs => rw [compareFields, List.compareLex_cons_cons, ih, comparePairs]

/-! ### Values in order -/

/-- The values in ascending order; a stable sort. -/
def ascending (values : List Value) : List Value := values.mergeSort fun a b => (compare a b).isLE

/-- Values have one order, whatever the order in which they come. -/
theorem ascending_eq_of_perm {values values' : List Value} (perm : values.Perm values') :
    ascending values = ascending values' := by
  have order := ordersTotally_of_lawful compare
  have total (a b : Value) : ((compare a b).isLE || (compare b a).isLE) = true :=
    Bool.or_eq_true_iff.mpr (order.total a b)
  have sorted (list : List Value) : (ascending list).Pairwise fun a b => (compare a b).isLE = true :=
    List.pairwise_mergeSort order.trans total list
  have same : (ascending values).Perm (ascending values') :=
    (List.mergeSort_perm values _).trans (perm.trans (List.mergeSort_perm values' _).symm)
  exact same.eq_of_pairwise (fun a b _ _ => order.antisymm a b) (sorted values) (sorted values')

end Value

/-- The record of a type with the given fields; of two values of one field the later holds. -/
def Record.ofList (type : EntityId) (fields : List (String × Value)) : Record :=
  fields.foldl (fun record field => record.set field.1 field.2) { type }

theorem Record.ofList_eq (type : EntityId) (fields : List (String × Value)) :
    Record.ofList type fields = { type, fields := SortedMap.ofList Ord.compare fields } := by
  induction fields using List.reverseRecOn with
  | nil => rfl
  | append_singleton before last ih =>
      rw [SortedMap.ofList_append_singleton, Record.ofList, List.foldl_append]
      exact congrArg (fun record => Record.set record last.1 last.2) ih

namespace Value

open SortedMap

/-- **Values are totally ordered**, by the first parts in which they differ. So sorting does not depend
on the order in which values come, nor do maps and records on that in which they are filled. -/
theorem compare_canonical :
    OrdersTotally compare ∧
      (∀ as bs, compare (list as) (list bs) = as.compareLex compare bs) ∧
      (∀ as bs, compare (map as) (map bs) = as.compareLex (comparePairs compare compare) bs) ∧
      (∀ s t as bs, compare (record s as) (record t bs) =
        (Ord.compare s.index t.index).then
          (as.compareLex (comparePairs Ord.compare compare) bs)) ∧
      (∀ bindings, ∃ entries, mapOf bindings = map entries ∧ Sorted compare entries) ∧
      (∀ values values' : List Value, values.Perm values' → ascending values = ascending values') ∧
      (∀ bindings bindings',
        (∀ key value, FinallyBinds bindings key value ↔ FinallyBinds bindings' key value) →
          mapOf bindings = mapOf bindings' ∧ compare (mapOf bindings) (mapOf bindings') = .eq) ∧
      (∀ type fields fields',
        (∀ name value, FinallyBinds fields name value ↔ FinallyBinds fields' name value) →
          Record.ofList type fields = Record.ofList type fields' ∧
            compare (Record.ofList type fields).toValue (Record.ofList type fields').toValue =
              .eq) := by
  refine ⟨ordersTotally_of_lawful compare, compareItems_eq, compareEntries_eq, fun s t as bs => ?_,
    fun bindings => ⟨_, rfl, sorted_ofList bindings⟩, fun _ _ => ascending_eq_of_perm,
    fun bindings bindings' same => ?_, fun type fields fields' same => ?_⟩
  · rw [compare, compareFields_eq]
  · have made : mapOf bindings = mapOf bindings' := congrArg map (ofList_eq_iff.mpr same)
    exact ⟨made, (compare_eq_iff _ _).mpr made⟩
  · have made : Record.ofList type fields = Record.ofList type fields' := by
      rw [Record.ofList_eq, Record.ofList_eq, ofList_eq_iff.mpr same]
    exact ⟨made, (compare_eq_iff _ _).mpr (congrArg Record.toValue made)⟩

/-- Bindings of numbers, one of them bound twice. -/
def counted : List (Value × Value) :=
  [(int 2, string "two"), (int 1, string "uno"), (int 1, string "one")]

/-- The same numbers the other way round, each bound once. -/
def recounted : List (Value × Value) := [(int 1, string "one"), (int 2, string "two")]

theorem compare_canonical_counted :
    ([int 2, nil, list [int 1]] : List Value).Perm [list [int 1], int 2, nil] ∧
      ascending [int 2, nil, list [int 1]] = ascending [list [int 1], int 2, nil] ∧
      (∀ key value, FinallyBinds counted key value ↔ FinallyBinds recounted key value) ∧
      mapOf counted = mapOf recounted ∧
      (∀ name value, FinallyBinds [("b", nil), ("a", int 1)] name value ↔
        FinallyBinds [("a", int 1), ("b", nil)] name value) ∧
      Record.ofList ⟨0⟩ [("b", nil), ("a", int 1)] = Record.ofList ⟨0⟩ [("a", int 1), ("b", nil)] := by
  obtain ⟨_, _, _, _, _, sorts, maps, records⟩ := compare_canonical
  have perm : ([int 2, nil, list [int 1]] : List Value).Perm [list [int 1], int 2, nil] := by decide
  have bound : SortedMap.ofList compare counted = SortedMap.ofList compare recounted := by decide
  have set : SortedMap.ofList Ord.compare [("b", nil), ("a", int 1)] =
      SortedMap.ofList Ord.compare [("a", int 1), ("b", nil)] := by decide
  have bindings : ∀ key value, FinallyBinds counted key value ↔ FinallyBinds recounted key value :=
    ofList_eq_iff.mp bound
  have fields : ∀ name value, FinallyBinds [("b", nil), ("a", int 1)] name value ↔
      FinallyBinds [("a", int 1), ("b", nil)] name value :=
    ofList_eq_iff.mp set
  exact ⟨perm, sorts _ _ perm, bindings, (maps _ _ bindings).1, fields, (records _ _ _ fields).1⟩

end Value

end EntityForge
