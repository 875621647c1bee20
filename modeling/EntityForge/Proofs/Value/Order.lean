import EntityForge.Value.Basic

/-!
The order of values is total. Its laws compare two or three values at once and are proved along the
first of them, as the comparison itself runs. Transitivity alone would not carry the induction: a
lexicographic comparison goes on where the first parts are equal, so `Chains` also says that equal
neighbours compare alike with a third value.
-/

namespace EntityForge

/-- How the outer two of three values compare, given how each compares with the one in between. -/
structure Chains (first second outer : Ordering) : Prop where
  lt : first = .lt → second = .lt → outer = .lt
  eq_left : first = .eq → outer = second
  eq_right : second = .eq → outer = first

theorem chains_of_transCmp {α : Type} (cmp : α → α → Ordering) [Std.TransCmp cmp] (a b c : α) :
    Chains (cmp a b) (cmp b c) (cmp a c) where
  lt := Std.TransCmp.lt_trans
  eq_left := Std.TransCmp.congr_left
  eq_right same := (Std.TransCmp.congr_right same).symm

/-- A comparison of first parts is continued by one of the rest, where the first parts are equal. -/
theorem Chains.then {first second outer first' second' outer' : Ordering}
    (chains : Chains first second outer)
    (rest : first = .eq → second = .eq → Chains first' second' outer') :
    Chains (first.then first') (second.then second') (outer.then outer') where
  lt less less' := by
    rw [Ordering.then_eq_lt] at less less' ⊢
    rcases less with less | ⟨same, less⟩ <;> rcases less' with less' | ⟨same', less'⟩
    · exact .inl (chains.lt less less')
    · exact .inl ((chains.eq_right same').trans less)
    · exact .inl ((chains.eq_left same).trans less')
    · exact .inr ⟨(chains.eq_left same).trans same', (rest same same').lt less less'⟩
  eq_left same := by
    obtain ⟨same, same'⟩ := Ordering.then_eq_eq.mp same
    obtain rfl := chains.eq_left same
    cases outer with
    | eq => rw [(rest same rfl).eq_left same']
    | lt | gt => rfl
  eq_right same := by
    obtain ⟨same, same'⟩ := Ordering.then_eq_eq.mp same
    obtain rfl := chains.eq_right same
    cases outer with
    | eq => rw [(rest rfl same).eq_right same']
    | lt | gt => rfl

namespace Value

/-- Values are compared by their kinds first. -/
theorem compare_eq_then (a b : Value) :
    compare a b = (Ord.compare a.kindRank b.kindRank).then (compare a b) := by
  cases a <;> cases b <;> rfl

/-- Three values have to be compared by their contents only if they are of one kind. -/
theorem chains_of_kinds {a b c : Value}
    (alike : a.kindRank = b.kindRank → b.kindRank = c.kindRank →
      Chains (compare a b) (compare b c) (compare a c)) :
    Chains (compare a b) (compare b c) (compare a c) := by
  rw [compare_eq_then a b, compare_eq_then b c, compare_eq_then a c]
  exact (chains_of_transCmp Ord.compare _ _ _).then fun ab bc =>
    alike (Nat.compare_eq_eq.mp ab) (Nat.compare_eq_eq.mp bc)

-- In each case the kind of the first value leaves one constructor for the other two.

mutual

/-- The order of values is transitive. -/
theorem chains_compare : ∀ a b c : Value, Chains (compare a b) (compare b c) (compare a c)
  | nil, b, c => chains_of_kinds fun ab bc => by
    cases b <;> cases ab; cases c <;> cases bc
    exact ⟨fun less _ => less, fun _ => rfl, fun _ => rfl⟩
  | int _, b, c => chains_of_kinds fun ab bc => by
    cases b <;> cases ab; cases c <;> cases bc
    exact chains_of_transCmp Ord.compare _ _ _
  | string _, b, c => chains_of_kinds fun ab bc => by
    cases b <;> cases ab; cases c <;> cases bc
    exact chains_of_transCmp Ord.compare _ _ _
  | ref _, b, c => chains_of_kinds fun ab bc => by
    cases b <;> cases ab; cases c <;> cases bc
    exact (chains_of_transCmp Ord.compare _ _ _).then fun _ _ => chains_of_transCmp Ord.compare _ _ _
  | list as, b, c => chains_of_kinds fun ab bc => by
    cases b <;> cases ab; cases c <;> cases bc
    exact chains_compareItems as _ _
  | map as, b, c => chains_of_kinds fun ab bc => by
    cases b <;> cases ab; cases c <;> cases bc
    exact chains_compareEntries as _ _
  | record _ as, b, c => chains_of_kinds fun ab bc => by
    cases b <;> cases ab; cases c <;> cases bc
    exact (chains_of_transCmp Ord.compare _ _ _).then fun _ _ => chains_compareFields as _ _
termination_by structural a => a

theorem chains_compareItems : ∀ as bs cs : List Value,
    Chains (compareItems as bs) (compareItems bs cs) (compareItems as cs)
  | [], bs, cs => by
    cases bs <;> cases cs <;> constructor <;> simp [compareItems]
  | a :: as, bs, cs => by
    cases bs <;> cases cs
    case cons.cons b bs c cs =>
      exact (chains_compare a b c).then fun _ _ => chains_compareItems as bs cs
    all_goals constructor <;> simp [compareItems]
termination_by structural as => as

theorem chains_compareEntries : ∀ as bs cs : List (Value × Value),
    Chains (compareEntries as bs) (compareEntries bs cs) (compareEntries as cs)
  | [], bs, cs => by
    cases bs <;> cases cs <;> constructor <;> simp [compareEntries]
  | (k, a) :: as, bs, cs => by
    cases bs <;> cases cs
    case cons.cons b bs c cs =>
      exact ((chains_compare k b.1 c.1).then fun _ _ => chains_compare a b.2 c.2).then
        fun _ _ => chains_compareEntries as bs cs
    all_goals constructor <;> simp [compareEntries]
termination_by structural as => as

theorem chains_compareFields : ∀ as bs cs : List (String × Value),
    Chains (compareFields as bs) (compareFields bs cs) (compareFields as cs)
  | [], bs, cs => by
    cases bs <;> cases cs <;> constructor <;> simp [compareFields]
  | (k, a) :: as, bs, cs => by
    cases bs <;> cases cs
    case cons.cons b bs c cs =>
      exact ((chains_of_transCmp Ord.compare k b.1 c.1).then fun _ _ => chains_compare a b.2 c.2).then
        fun _ _ => chains_compareFields as bs cs
    all_goals constructor <;> simp [compareFields]
termination_by structural as => as

end

mutual

/-- Comparing the other way round swaps the result. -/
theorem compare_swap : ∀ a b : Value, compare a b = (compare b a).swap
  | nil, b => by cases b <;> rfl
  | int _, b => by
    cases b
    case int => exact Std.OrientedOrd.eq_swap
    all_goals rfl
  | string _, b => by
    cases b
    case string => exact Std.OrientedOrd.eq_swap
    all_goals rfl
  | ref r, b => by
    cases b
    case ref s =>
      rw [compare, compare, Ordering.swap_then, Std.OrientedOrd.eq_swap (a := r.tag),
        Std.OrientedOrd.eq_swap (a := r.id)]
    all_goals rfl
  | list as, b => by
    cases b
    case list bs => exact compareItems_swap as bs
    all_goals rfl
  | map as, b => by
    cases b
    case map bs => exact compareEntries_swap as bs
    all_goals rfl
  | record t as, b => by
    cases b
    case record s bs =>
      rw [compare, compare, Ordering.swap_then, compareFields_swap as bs,
        Std.OrientedOrd.eq_swap (a := t.index)]
    all_goals rfl
termination_by structural a => a

theorem compareItems_swap : ∀ as bs : List Value, compareItems as bs = (compareItems bs as).swap
  | [], bs => by cases bs <;> rfl
  | a :: as, [] => rfl
  | a :: as, b :: bs => by
    rw [compareItems, compareItems, Ordering.swap_then, compare_swap a b, compareItems_swap as bs]
termination_by structural as => as

theorem compareEntries_swap :
    ∀ as bs : List (Value × Value), compareEntries as bs = (compareEntries bs as).swap
  | [], bs => by cases bs <;> rfl
  | (k, a) :: as, [] => rfl
  | (k, a) :: as, (l, b) :: bs => by
    rw [compareEntries, compareEntries, Ordering.swap_then, Ordering.swap_then, compare_swap k l,
      compare_swap a b, compareEntries_swap as bs]
termination_by structural as => as

theorem compareFields_swap :
    ∀ as bs : List (String × Value), compareFields as bs = (compareFields bs as).swap
  | [], bs => by cases bs <;> rfl
  | (k, a) :: as, [] => rfl
  | (k, a) :: as, (l, b) :: bs => by
    rw [compareFields, compareFields, Ordering.swap_then, Ordering.swap_then, compare_swap a b,
      compareFields_swap as bs, Std.OrientedOrd.eq_swap (a := k)]
termination_by structural as => as

end

instance : Std.TransCmp compare where
  eq_swap := compare_swap _ _
  isLE_trans := by
    intro a b c ab bc
    have chains := chains_compare a b c
    rcases Ordering.isLE_iff_eq_lt_or_eq_eq.mp ab with less | same
    · rcases Ordering.isLE_iff_eq_lt_or_eq_eq.mp bc with less' | same'
      · rw [chains.lt less less', Ordering.isLE_lt]
      · rwa [chains.eq_right same']
    · rwa [chains.eq_left same]

instance : Std.LawfulEqCmp compare where
  compare_self := (compare_eq_iff _ _).mpr rfl
  eq_of_compare := (compare_eq_iff _ _).mp

end Value

end EntityForge
