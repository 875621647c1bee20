import EntityForge.Error
import Mathlib.Data.List.Forall2

/-!
How computations that can fail succeed: a sequence succeeds when its parts do, one after the other,
and a check or a computation for every item of a list when no item fails it. The lemmas read a
success as what the parts returned, so that proofs about a function need not open its `do` block.
Changes of a state in place are read in the same way, with the states that they pass through.
-/

namespace EntityForge

variable {α β : Type}

instance (result : Except Error α) : Decidable (∃ a, result = .ok a) :=
  match result with
  | .ok a => isTrue ⟨a, rfl⟩
  | .error _ => isFalse (by rintro ⟨_, ⟨⟩⟩)

/-- A sequence succeeds when its first part does and the rest does on what the first returned. -/
theorem bind_eq_ok_iff {ε : Type} {first : Except ε α} {rest : α → Except ε β} {b : β} :
    (first >>= rest) = .ok b ↔ ∃ a, first = .ok a ∧ rest a = .ok b := by
  cases first with
  | error e =>
      constructor
      · intro h
        cases h
      · rintro ⟨_, h, _⟩
        cases h
  | ok a =>
      constructor
      · intro h
        exact ⟨a, rfl, h⟩
      · rintro ⟨_, h, run⟩
        cases h
        exact run

/-- What is made of a result is made of a success. -/
theorem map_eq_ok_iff {ε : Type} {result : Except ε α} {make : α → β} {b : β} :
    result.map make = .ok b ↔ ∃ a, result = .ok a ∧ make a = b := by
  cases result <;> simp [Except.map]

/-- A sequence fails when its first part does, or the rest on what the first returned. -/
theorem bind_eq_error_iff {first : Except Error α} {rest : α → Except Error β} {e : Error} :
    (first >>= rest) = .error e ↔
      first = .error e ∨ ∃ a, first = .ok a ∧ rest a = .error e := by
  cases first with
  | error e' =>
      constructor
      · intro h
        cases h
        exact .inl rfl
      · rintro (h | ⟨_, h, _⟩)
        · cases h
          rfl
        · cases h
  | ok a =>
      constructor
      · intro h
        exact .inr ⟨a, rfl, h⟩
      · rintro (h | ⟨_, h, run⟩)
        · cases h
        · cases h
          exact run

/-- Every item passes a check of all items. -/
theorem forM_eq_ok_iff {check : α → Except Error Unit} {items : List α} :
    items.forM check = .ok () ↔ ∀ item ∈ items, check item = .ok () := by
  induction items with
  | nil => exact ⟨fun _ _ mem => (List.not_mem_nil mem).elim, fun _ => rfl⟩
  | cons item rest ih =>
      change (check item >>= fun _ => rest.forM check) = .ok () ↔ _
      rw [bind_eq_ok_iff, List.forall_mem_cons, ← ih]
      exact ⟨fun ⟨_, h, run⟩ => ⟨h, run⟩, fun ⟨h, run⟩ => ⟨(), h, run⟩⟩

/-- Context only changes errors. -/
theorem inContext_eq_ok_iff {context : Context} {result : Except Error α} {a : α} :
    inContext context result = .ok a ↔ result = .ok a := by
  cases result with
  | error e => simp [inContext, Except.mapError]
  | ok b => simp [inContext, Except.mapError]

theorem inContext_eq_error_iff {context : Context} {result : Except Error α} {e : Error} :
    inContext context result = .error e ↔ ∃ inner, result = .error inner ∧ e = inner.within context := by
  cases result with
  | error inner => simp [inContext, Except.mapError, eq_comm]
  | ok b => simp [inContext, Except.mapError]

/-! ### Results for every item -/

/-- The results for the items of a list stand in the order of the items. -/
theorem mapM_eq_ok_iff {f : α → Except Error β} {items : List α} {results : List β} :
    items.mapM f = .ok results ↔ List.Forall₂ (fun a b => f a = .ok b) items results := by
  induction items generalizing results with
  | nil =>
      rw [List.mapM_nil, List.forall₂_nil_left_iff]
      exact ⟨fun h => (Except.ok.inj h).symm, fun h => congrArg Except.ok h.symm⟩
  | cons a rest ih =>
      simp only [List.mapM_cons, bind_eq_ok_iff, ih, List.forall₂_cons_left_iff]
      constructor
      · rintro ⟨b, first, others, follow, same⟩
        exact ⟨b, others, first, follow, (Except.ok.inj same).symm⟩
      · rintro ⟨b, others, first, follow, rfl⟩
        exact ⟨b, first, others, follow, rfl⟩

/-- Every item of one of two lists that are related item by item has a partner in the other. -/
theorem exists_of_forall₂ {R : α → β → Prop} {items : List α} {results : List β}
    (related : List.Forall₂ R items results) :
    (∀ a ∈ items, ∃ b ∈ results, R a b) ∧ ∀ b ∈ results, ∃ a ∈ items, R a b := by
  induction related with
  | nil => simp
  | cons first _ ih =>
      obtain ⟨left, right⟩ := ih
      constructor
      · refine List.forall_mem_cons.mpr ⟨⟨_, List.mem_cons_self, first⟩, fun a mem => ?_⟩
        obtain ⟨b, mem', here⟩ := left a mem
        exact ⟨b, List.mem_cons_of_mem _ mem', here⟩
      · refine List.forall_mem_cons.mpr ⟨⟨_, List.mem_cons_self, first⟩, fun b mem => ?_⟩
        obtain ⟨a, mem', here⟩ := right b mem
        exact ⟨a, List.mem_cons_of_mem _ mem', here⟩

/-- What comes to the same for partners comes to the same for the two lists. -/
theorem forall_iff_of_forall₂ {P : α → Prop} {Q : β → Prop} {items : List α} {results : List β}
    (related : List.Forall₂ (fun a b => P a ↔ Q b) items results) :
    (∀ a ∈ items, P a) ↔ ∀ b ∈ results, Q b := by
  induction related with
  | nil => simp
  | cons first _ ih => rw [List.forall_mem_cons, List.forall_mem_cons, first, ih]

/-- Two lists are related item by item if the items of the one say so. -/
theorem forall₂_iff_forall {R : α → β → Prop} {P : α → Prop} {items : List α} {results : List β}
    (each : List.Forall₂ (fun a b => R a b ↔ P a) items results) :
    List.Forall₂ R items results ↔ ∀ a ∈ items, P a := by
  induction each with
  | nil => simp
  | cons first _ ih => rw [List.forall₂_cons, List.forall_mem_cons, first, ih]

/-- Items of two lists that are related item by item have their partners at the same places. -/
theorem exists_getElem?_of_forall₂ {R : α → β → Prop} {items : List α} {results : List β}
    (related : List.Forall₂ R items results) {n : Nat} {a : α} (here : items[n]? = some a) :
    ∃ b, results[n]? = some b ∧ R a b := by
  induction related generalizing n with
  | nil => cases here
  | cons first _ ih =>
      cases n with
      | zero =>
          cases here
          exact ⟨_, rfl, first⟩
      | succ n => exact ih here

/-- Of two lists that are related item by item, one splits where the other does. -/
theorem exists_split_of_forall₂ {R : α → β → Prop} {items : List α} {before after : List β} {b : β}
    (related : List.Forall₂ R items (before ++ b :: after)) :
    ∃ first a rest, items = first ++ a :: rest ∧ List.Forall₂ R first before ∧ R a b ∧
      List.Forall₂ R rest after := by
  induction before generalizing items with
  | nil =>
      obtain ⟨a, rest, here, others, rfl⟩ := List.forall₂_cons_right_iff.mp related
      exact ⟨[], a, rest, rfl, .nil, here, others⟩
  | cons b' before ih =>
      obtain ⟨a', rest, here, others, rfl⟩ := List.forall₂_cons_right_iff.mp related
      obtain ⟨first, a, rest, rfl, earlier, there, later⟩ := ih others
      exact ⟨a' :: first, a, rest, rfl, .cons here earlier, there, later⟩

/-- Two lists are related item by item, with something the same in both, when this is the same list and
what stands at one place is related. -/
theorem forall₂_eq_and_iff {γ : Type} {f : α → γ} {g : β → γ} {R : α → β → Prop} {items : List α}
    {results : List β} : List.Forall₂ (fun a b => f a = g b ∧ R a b) items results ↔
      items.map f = results.map g ∧ ∀ a b, (a, b) ∈ items.zip results → R a b := by
  constructor
  · intro related
    refine ⟨?_, fun a b mem => (List.forall₂_zip related mem).2⟩
    rw [← List.forall₂_eq_eq_eq, List.forall₂_map_left_iff, List.forall₂_map_right_iff]
    exact related.imp fun _ _ here => here.1
  · rintro ⟨same, related⟩
    rw [← List.forall₂_eq_eq_eq, List.forall₂_map_left_iff, List.forall₂_map_right_iff] at same
    refine List.forall₂_iff_zip.mpr ⟨same.length_eq, fun mem => ?_⟩
    exact ⟨List.forall₂_zip same mem, related _ _ mem⟩

/-- What is said of results and what was made of the items is said of the items and the results, if it
comes to the same for each item. -/
theorem forall₂_iff_of_forall₂ {γ : Type} {R : α → γ → Prop} {P : α → β → Prop} {Q : β → γ → Prop}
    {items : List α} {parts : List γ} {results : List β} (made : List.Forall₂ R items parts)
    (each : ∀ a c, R a c → ∀ b, Q b c ↔ P a b) :
    List.Forall₂ Q results parts ↔ List.Forall₂ P items results := by
  induction made generalizing results with
  | nil => rw [List.forall₂_nil_right_iff, List.forall₂_nil_left_iff]
  | cons here _ ih =>
      simp only [List.forall₂_cons_right_iff, List.forall₂_cons_left_iff, each _ _ here, ih]

/-- Partners of the same items are partners of each other. -/
theorem forall₂_partners {γ : Type} {R : α → β → Prop} {S : α → γ → Prop} {T : β → γ → Prop}
    {items : List α} {results : List β} {parts : List γ} (each : ∀ a b c, R a b → S a c → T b c)
    (first : List.Forall₂ R items results) (second : List.Forall₂ S items parts) :
    List.Forall₂ T results parts := by
  induction first generalizing parts with
  | nil =>
      cases second
      exact .nil
  | cons here _ ih =>
      obtain _ | ⟨there, others⟩ := second
      exact .cons (each _ _ _ here there) (ih others)

/-- Lists that end alike are related if what is before is, and what they end with. -/
theorem forall₂_append_iff {R : α → β → Prop} {items last : List α} {results last' : List β}
    (ends : List.Forall₂ R last last') :
    List.Forall₂ R (items ++ last) (results ++ last') ↔ List.Forall₂ R items results := by
  refine ⟨fun related => ?_, fun related => List.rel_append related ends⟩
  have lengths := related.length_eq
  rw [List.length_append, List.length_append, ends.length_eq, Nat.add_right_cancel_iff] at lengths
  have front := List.forall₂_take_append _ _ _ related
  rwa [← lengths, List.take_left] at front

/-- Results that are each made of something else are made of a list of these. -/
theorem exists_map_of_forall₂ {γ : Type} {R : α → γ → Prop} {S : α → β → Prop} {make : β → γ}
    {items : List α} {results : List γ} (each : ∀ a c, R a c → ∃ b, S a b ∧ c = make b)
    (related : List.Forall₂ R items results) :
    ∃ parts, List.Forall₂ S items parts ∧ results = parts.map make := by
  induction related with
  | nil => exact ⟨[], .nil, rfl⟩
  | cons here _ ih =>
      obtain ⟨parts, follow, rfl⟩ := ih
      obtain ⟨b, first, rfl⟩ := each _ _ here
      exact ⟨b :: parts, .cons first follow, rfl⟩

/-- What each pair of related items has is listed in their order. -/
theorem exists_forall₂_zip {γ : Type} {R : α → β → γ → Prop} {items : List α} {results : List β}
    (related : List.Forall₂ (fun a b => ∃ c, R a b c) items results) :
    ∃ parts, List.Forall₂ (fun p c => R p.1 p.2 c) (items.zip results) parts := by
  induction related with
  | nil => exact ⟨[], .nil⟩
  | cons here _ ih =>
      obtain ⟨c, first⟩ := here
      obtain ⟨parts, follow⟩ := ih
      exact ⟨c :: parts, .cons first follow⟩

theorem zipWith_right {items : List α} {results : List β}
    (same : items.length = results.length) : List.zipWith (fun _ b => b) items results = results := by
  rw [← List.map_uncurry_zip_eq_zipWith]
  exact List.map_snd_zip (Nat.le_of_eq same.symm)

/-- Results that are made of their items' places are made of their own. -/
theorem zipWith_zipIdx {γ : Type} (make : β × Nat → γ) {items : List α} {results : List β}
    (same : items.length = results.length) :
    List.zipWith (fun item b => make (b, item.2)) items.zipIdx results =
      results.zipIdx.map make := by
  apply List.ext_getElem
  · simp [same]
  · simp

/-- Results that are each made of something and of the place of the item are made of a list of these. -/
theorem exists_zipIdx_of_forall₂ {γ : Type} {R : α → β → Prop} (make : β × Nat → γ) {items : List α}
    {n : Nat} {results : List γ}
    (related : List.Forall₂ (fun a c => ∃ b, R a.1 b ∧ c = make (b, a.2)) (items.zipIdx n) results) :
    ∃ parts, List.Forall₂ R items parts ∧ results = (parts.zipIdx n).map make := by
  induction items generalizing n results with
  | nil =>
      cases related
      exact ⟨[], .nil, rfl⟩
  | cons a rest ih =>
      obtain _ | ⟨⟨b, first, rfl⟩, others⟩ := related
      obtain ⟨parts, follow, rfl⟩ := ih others
      exact ⟨b :: parts, .cons first follow, rfl⟩

theorem forall₂_zipWith {γ : Type} {S : α → β → Prop} {make : α → β → γ} {items : List α}
    {parts : List β} (related : List.Forall₂ S items parts) :
    List.Forall₂ (fun a c => ∃ b, S a b ∧ c = make a b) items (List.zipWith make items parts) := by
  induction related with
  | nil => exact .nil
  | cons here _ ih => exact .cons ⟨_, here, rfl⟩ ih

/-- What is read off each result stands in the order of the items. -/
theorem forall₂_filterMap {γ : Type} {R : α → β → Prop} {S : α → γ → Prop} {read : β → Option γ}
    {items : List α} {results : List β} (each : ∀ a b, R a b → ∃ c, read b = some c ∧ S a c)
    (related : List.Forall₂ R items results) : List.Forall₂ S items (results.filterMap read) := by
  induction related with
  | nil => exact .nil
  | cons here _ ih =>
      obtain ⟨c, found, reads⟩ := each _ _ here
      rw [List.filterMap_cons_some found]
      exact .cons reads ih

/-- Results that only some items have stand in the order of these items. -/
theorem forall₂_filter_flatten {S : α → β → Prop} {has : α → Bool} {items : List α}
    {parts : List (List β)} (each : List.Forall₂ (fun a => List.Forall₂ S ([a].filter has)) items parts) :
    List.Forall₂ S (items.filter has) parts.flatten := by
  induction each with
  | nil => exact .nil
  | @cons a part items parts here _ ih =>
      rw [← List.singleton_append, List.filter_append, List.flatten_cons]
      exact List.rel_append here ih

/-- Results that each item determines repeat exactly where two items have the same one. -/
theorem nodup_iff_of_forall₂ {R : α → β → Prop} {items : List α} {results : List β}
    (related : List.Forall₂ R items results) (unique : ∀ a b b', R a b → R a b' → b' = b)
    (nodup : items.Nodup) :
    results.Nodup ↔ ∀ a ∈ items, ∀ a' ∈ items, ∀ b, R a b → R a' b → a' = a := by
  induction related with
  | nil => simp
  | @cons a b items results here follow ih =>
      obtain ⟨new, nodup⟩ := List.nodup_cons.mp nodup
      rw [List.nodup_cons, ih nodup]
      constructor
      · rintro ⟨fresh, apart⟩ x memX y memY c relX relY
        have other : ∀ z ∈ items, ∀ c, R z c → c ∈ results := by
          intro z mem c rel
          obtain ⟨c', listed, rel'⟩ := (exists_of_forall₂ follow).1 z mem
          rwa [unique z c' c rel' rel]
        rcases List.mem_cons.mp memX with rfl | laterX
        · obtain rfl := unique _ _ _ here relX
          rcases List.mem_cons.mp memY with rfl | laterY
          · rfl
          · exact (fresh (other y laterY _ relY)).elim
        · rcases List.mem_cons.mp memY with rfl | laterY
          · obtain rfl := unique _ _ _ here relY
            exact (fresh (other x laterX _ relX)).elim
          · exact apart x laterX y laterY c relX relY
      · intro apart
        refine ⟨fun repeated => ?_, fun x memX y memY => ?_⟩
        · obtain ⟨a', mem, rel⟩ := (exists_of_forall₂ follow).2 b repeated
          have same := apart a List.mem_cons_self a' (List.mem_cons_of_mem a mem) b here rel
          exact new (same ▸ mem)
        · exact apart x (List.mem_cons_of_mem a memX) y (List.mem_cons_of_mem a memY)

/-- There are results for a list when there is one for each item. -/
theorem exists_mapM_eq_ok_iff {f : α → Except Error β} {items : List α} :
    (∃ results, items.mapM f = .ok results) ↔ ∀ a ∈ items, ∃ b, f a = .ok b := by
  induction items with
  | nil => exact ⟨fun _ _ mem => (List.not_mem_nil mem).elim, fun _ => ⟨[], rfl⟩⟩
  | cons a rest ih =>
      rw [List.forall_mem_cons, ← ih]
      simp only [List.mapM_cons, bind_eq_ok_iff]
      constructor
      · rintro ⟨_, b, first, others, follow, _⟩
        exact ⟨⟨b, first⟩, others, follow⟩
      · rintro ⟨⟨b, first⟩, others, follow⟩
        exact ⟨b :: others, b, first, others, follow, rfl⟩

/-- A computation for a list fails only when it fails for an item. -/
theorem exists_of_mapM_eq_error {f : α → Except Error β} {items : List α} {e : Error}
    (failed : items.mapM f = .error e) : ∃ a ∈ items, f a = .error e := by
  induction items with
  | nil => cases failed
  | cons a rest ih =>
      rw [List.mapM_cons] at failed
      rcases bind_eq_error_iff.mp failed with first | ⟨b, _, failed⟩
      · exact ⟨a, List.mem_cons_self, first⟩
      · rcases bind_eq_error_iff.mp failed with later | ⟨_, _, done⟩
        · obtain ⟨a', mem, here⟩ := ih later
          exact ⟨a', List.mem_cons_of_mem a mem, here⟩
        · cases done

/-- A computation for a list fails as it does for the first item that it fails for. -/
theorem mapM_eq_error_of_split {f : α → Except Error β} {before after : List α} {a : α}
    {results : List β} {e : Error} (earlier : before.mapM f = .ok results)
    (failed : f a = .error e) : (before ++ a :: after).mapM f = .error e := by
  rw [List.mapM_append, earlier, List.mapM_cons, failed]
  rfl

/-- The results are those of the items. -/
theorem mem_of_mapM_eq_ok {f : α → Except Error β} {items : List α} {results : List β}
    (run : items.mapM f = .ok results) {b : β} : b ∈ results ↔ ∃ a ∈ items, f a = .ok b := by
  induction mapM_eq_ok_iff.mp run with
  | nil => simp
  | @cons a c items results first _ ih =>
      rw [List.mem_cons, List.exists_mem_cons_iff, ih (mapM_eq_ok_iff.mpr ‹_›), first,
        Except.ok.injEq, eq_comm]

/-- What the results for the items of a list contain, some result for an item contains. -/
theorem mem_flatMap_of_mapM_eq_ok {γ : Type} {f : α → Except Error β} {g : β → List γ}
    {items : List α} {results : List β} (run : items.mapM f = .ok results) {c : γ} :
    c ∈ results.flatMap g ↔ ∃ a ∈ items, ∃ b, f a = .ok b ∧ c ∈ g b := by
  rw [List.mem_flatMap]
  constructor
  · rintro ⟨b, mem, inside⟩
    obtain ⟨a, listed, computed⟩ := (mem_of_mapM_eq_ok run).mp mem
    exact ⟨a, listed, b, computed, inside⟩
  · rintro ⟨a, listed, b, computed, inside⟩
    exact ⟨b, (mem_of_mapM_eq_ok run).mpr ⟨a, listed, computed⟩, inside⟩

/-- A test that succeeds for all items keeps those that pass it. -/
theorem filterAuxM_eq_ok {test : α → Except Error Bool} {passes : α → Bool} {items : List α}
    (each : ∀ a ∈ items, test a = .ok (passes a)) (kept : List α) :
    items.filterAuxM test kept = .ok ((items.filter passes).reverse ++ kept) := by
  induction items generalizing kept with
  | nil => rfl
  | cons a rest ih =>
      obtain ⟨first, others⟩ := List.forall_mem_cons.mp each
      refine bind_eq_ok_iff.mpr ⟨passes a, first, (ih others _).trans ?_⟩
      rw [List.filter_cons]
      cases passes a <;> simp

theorem filterM_eq_ok {test : α → Except Error Bool} {passes : α → Bool} {items : List α}
    (each : ∀ a ∈ items, test a = .ok (passes a)) :
    items.filterM test = .ok (items.filter passes) := by
  refine bind_eq_ok_iff.mpr ⟨_, filterAuxM_eq_ok each [], ?_⟩
  rw [List.append_nil, List.reverse_reverse]
  rfl

/-- A state that every item of a list can be added to takes the whole list. -/
theorem exists_foldlM_eq_ok {step : β → α → Except Error β} {items : List α}
    (steps : ∀ b, ∀ a ∈ items, ∃ c, step b a = .ok c) (start : β) :
    ∃ b, items.foldlM step start = .ok b := by
  induction items generalizing start with
  | nil => exact ⟨start, rfl⟩
  | cons a rest ih =>
      obtain ⟨b, first⟩ := steps start a List.mem_cons_self
      obtain ⟨c, others⟩ := ih (fun b a mem => steps b a (List.mem_cons_of_mem _ mem)) b
      exact ⟨c, by rw [List.foldlM_cons]; exact bind_eq_ok_iff.mpr ⟨b, first, others⟩⟩

/-- When not all items can be added, there is a first that cannot. -/
theorem exists_split_of_foldlM_eq_error {step : β → α → Except Error β} {items : List α}
    {start : β} {e : Error} (failed : items.foldlM step start = .error e) :
    ∃ before a after b, items = before ++ a :: after ∧ before.foldlM step start = .ok b ∧
      step b a = .error e := by
  induction items generalizing start with
  | nil => cases failed
  | cons a rest ih =>
      rw [List.foldlM_cons] at failed
      rcases bind_eq_error_iff.mp failed with here | ⟨b, first, later⟩
      · exact ⟨[], a, rest, start, rfl, rfl, here⟩
      · obtain ⟨before, a', after, c, rfl, earlier, there⟩ := ih later
        refine ⟨a :: before, a', after, c, rfl, ?_, there⟩
        rw [List.foldlM_cons]
        exact bind_eq_ok_iff.mpr ⟨b, first, earlier⟩

/-- What each step adds, the steps of a list add together. -/
theorem foldlM_collects {γ : Type} {step : β → α → Except Error β} {adds : β → List γ → β → Prop}
    {f : α → List γ} (none : ∀ b, adds b [] b)
    (both : ∀ a b c xs ys, adds a xs b → adds b ys c → adds a (xs ++ ys) c) {items : List α}
    (steps : ∀ a ∈ items, ∀ b c, step b a = .ok c → adds b (f a) c) {start result : β}
    (run : items.foldlM step start = .ok result) : adds start (items.flatMap f) result := by
  induction items generalizing start with
  | nil =>
      obtain rfl : start = result := Except.ok.inj run
      exact none start
  | cons a rest ih =>
      rw [List.foldlM_cons] at run
      obtain ⟨middle, first, others⟩ := bind_eq_ok_iff.mp run
      obtain ⟨here, later⟩ := List.forall_mem_cons.mp steps
      exact both _ _ _ _ _ (here start middle first) (ih later others)

/-- What every step preserves, the steps of a list preserve. -/
theorem foldlM_preserves {P : β → Prop} {step : β → α → Except Error β} {items : List α}
    (steps : ∀ a ∈ items, ∀ b c, step b a = .ok c → P b → P c) {start result : β}
    (run : items.foldlM step start = .ok result) (first : P start) : P result := by
  induction items generalizing start with
  | nil =>
      obtain rfl : start = result := Except.ok.inj run
      exact first
  | cons a rest ih =>
      rw [List.foldlM_cons] at run
      obtain ⟨middle, step, others⟩ := bind_eq_ok_iff.mp run
      obtain ⟨here, later⟩ := List.forall_mem_cons.mp steps
      exact ih later others (here start middle step first)

/-- What a step gives its item and every later step keeps, all items have in the end. -/
theorem forall_of_foldlM {P : α → β → Prop} {step : β → α → Except Error β} {items : List α}
    (gives : ∀ a ∈ items, ∀ b c, step b a = .ok c → P a c)
    (keeps : ∀ a ∈ items, ∀ b c, step b a = .ok c → ∀ a', P a' b → P a' c) {start result : β}
    (run : items.foldlM step start = .ok result) : ∀ a ∈ items, P a result := by
  induction items generalizing start with
  | nil => exact fun _ mem => (List.not_mem_nil mem).elim
  | cons a rest ih =>
      rw [List.foldlM_cons] at run
      obtain ⟨middle, first, others⟩ := bind_eq_ok_iff.mp run
      obtain ⟨here, later⟩ := List.forall_mem_cons.mp gives
      obtain ⟨_, kept⟩ := List.forall_mem_cons.mp keeps
      refine List.forall_mem_cons.mpr ⟨?_, ih later kept others⟩
      exact foldlM_preserves (fun a' mem b c run => kept a' mem b c run a) others
        (here start middle first)

/-- When all items are added, a step has succeeded for each. -/
theorem exists_step_of_foldlM_eq_ok {step : β → α → Except Error β} {items : List α}
    {start result : β} (run : items.foldlM step start = .ok result) :
    ∀ a ∈ items, ∃ b c, step b a = .ok c := by
  induction items generalizing start with
  | nil => exact fun _ mem => (List.not_mem_nil mem).elim
  | cons a rest ih =>
      rw [List.foldlM_cons] at run
      obtain ⟨middle, first, others⟩ := bind_eq_ok_iff.mp run
      exact List.forall_mem_cons.mpr ⟨⟨start, middle, first⟩, ih others⟩

/-! ### Changes in place -/

variable {σ : Type} {s s' : σ}

theorem run_bind_eq_ok_iff {first : EStateM Error σ α} {rest : α → EStateM Error σ β} {b : β} :
    (first >>= rest).run s = .ok b s' ↔
      ∃ a t, first.run s = .ok a t ∧ (rest a).run t = .ok b s' := by
  rw [EStateM.run_bind]
  cases first.run s with
  | ok a t => simp [and_assoc]
  | error e t => simp

theorem run_bind_eq_error_iff {first : EStateM Error σ α} {rest : α → EStateM Error σ β}
    {e : Error} :
    (first >>= rest).run s = .error e s' ↔ first.run s = .error e s' ∨
      ∃ a t, first.run s = .ok a t ∧ (rest a).run t = .error e s' := by
  rw [EStateM.run_bind]
  cases first.run s with
  | ok a t => simp [and_assoc]
  | error e t => simp

theorem run_test_eq_ok_iff {check : σ → Except Error α} {a : α} :
    (test check).run s = .ok a s' ↔ check s = .ok a ∧ s' = s := by
  simp only [EStateM.run, test]
  cases check s with
  | ok a => simp [eq_comm]
  | error e => simp

theorem run_test_eq_error_iff {check : σ → Except Error α} {e : Error} :
    (test check).run s = .error e s' ↔ check s = .error e ∧ s' = s := by
  simp only [EStateM.run, test]
  cases check s with
  | ok a => simp
  | error e => simp [eq_comm]

/-! ### Results with a state -/

theorem mapM_congr {m : Type → Type} [Monad m] [LawfulMonad m] {f g : α → m β} {items : List α}
    (same : ∀ a ∈ items, f a = g a) : items.mapM f = items.mapM g := by
  induction items with
  | nil => rw [List.mapM_nil, List.mapM_nil]
  | cons a rest ih =>
      obtain ⟨first, others⟩ := List.forall_mem_cons.mp same
      rw [List.mapM_cons, List.mapM_cons, first, ih others]

/-- What follows a result that needs no state only matters for what the result is. -/
theorem lift_bind_congr {result : Except Error α} {rest rest' : α → StateT σ (Except Error) β}
    (same : ∀ a, result = .ok a → rest a = rest' a) :
    ((liftM result : StateT σ (Except Error) α) >>= rest) = liftM result >>= rest' := by
  cases result with
  | error e => rfl
  | ok a => exact same a rfl

/-- Results that need no state are the same one by one. -/
theorem lift_mapM {f : α → Except Error β} {items : List α} :
    (liftM (items.mapM f) : StateT σ (Except Error) (List β)) =
      items.mapM fun a => (liftM (f a) : StateT σ (Except Error) β) := by
  induction items with
  | nil => rw [List.mapM_nil, List.mapM_nil, liftM_pure]
  | cons a rest ih =>
      rw [List.mapM_cons, List.mapM_cons, liftM_bind, ← ih]
      congr 1
      funext b
      rw [liftM_bind]
      simp only [liftM_pure]

theorem runState_bind_eq_ok_iff {first : StateT σ (Except Error) α}
    {rest : α → StateT σ (Except Error) β} {b : β} :
    (first >>= rest).run s = .ok (b, s') ↔
      ∃ a t, first.run s = .ok (a, t) ∧ (rest a).run t = .ok (b, s') := by
  rw [StateT.run_bind, bind_eq_ok_iff, Prod.exists]

/-- A result that needs no state leaves it as it is. -/
theorem runState_lift_eq_ok_iff {result : Except Error α} {a : α} :
    (liftM result : StateT σ (Except Error) α).run s = .ok (a, s') ↔
      result = .ok a ∧ s' = s := by
  change (result >>= fun b => .ok (b, s)) = .ok (a, s') ↔ _
  rw [bind_eq_ok_iff]
  simp [eq_comm (a := s)]

/-- What follows a result that needs no state starts where the result was asked for. -/
theorem runState_lift_bind_eq_ok_iff {result : Except Error α}
    {rest : α → StateT σ (Except Error) β} {b : β} :
    ((liftM result : StateT σ (Except Error) α) >>= rest).run s = .ok (b, s') ↔
      ∃ a, result = .ok a ∧ (rest a).run s = .ok (b, s') := by
  rw [runState_bind_eq_ok_iff]
  constructor
  · rintro ⟨a, t, here, follow⟩
    obtain ⟨found, rfl⟩ := runState_lift_eq_ok_iff.mp here
    exact ⟨a, found, follow⟩
  · rintro ⟨a, found, follow⟩
    exact ⟨a, s, runState_lift_eq_ok_iff.mpr ⟨found, rfl⟩, follow⟩

/-- The results for the items of a list stand in the order of the items, each with a state that it
was computed in. -/
theorem forall₂_of_runState_mapM {f : α → StateT σ (Except Error) β} {items : List α}
    {results : List β} (run : (items.mapM f).run s = .ok (results, s')) :
    List.Forall₂ (fun a b => ∃ t t', (f a).run t = .ok (b, t')) items results := by
  induction items generalizing results s with
  | nil =>
      cases run
      exact .nil
  | cons a rest ih =>
      rw [List.mapM_cons] at run
      obtain ⟨b, t, first, run⟩ := runState_bind_eq_ok_iff.mp run
      obtain ⟨others, t', follow, last⟩ := runState_bind_eq_ok_iff.mp run
      cases last
      exact .cons ⟨s, t, first⟩ (ih follow)

end EntityForge
