import EntityForge.Proofs.Instances.Registration
import Mathlib.Algebra.BigOperators.Group.Finset.Piecewise
import Mathlib.Data.List.Induction

/-!
What a registry of instances contains, as one list.

`numbered` is what accepted registrations come to: their ids and records in their order, each with
the number of earlier ones of its type. In the bucket of a type, this number is the position
(`getElem?_filter_numbered`), so keys tell the instances apart. `Keeps` says that every collection of
a registry is a view of the one list, and `Keeps.enter` that a registration adds its instance to the
list and thereby to every view.
-/

namespace EntityForge

/-- What a list with a further item has at a place. -/
theorem getElem?_concat_eq_some_iff {α : Type} {items : List α} {a b : α} {n : Nat} :
    (items ++ [a])[n]? = some b ↔ items[n]? = some b ∨ (n = items.length ∧ b = a) := by
  grind

theorem filter_concat {α : Type} {p : α → Bool} {items : List α} {a : α} :
    (items ++ [a]).filter p = if p a then items.filter p ++ [a] else items.filter p := by
  cases holds : p a with
  | true => simp [holds]
  | false => simp [holds]

/-- The parts of a list by the value of a bounded function make up the list. -/
theorem sum_length_filter {α : Type} {f : α → Nat} {bound : Nat} {items : List α}
    (bounded : ∀ a ∈ items, f a < bound) :
    ∑ k ∈ Finset.range bound, (items.filter (f · == k)).length = items.length := by
  induction items with
  | nil => simp
  | cons a rest ih =>
      obtain ⟨inside, bounded⟩ := List.forall_mem_cons.mp bounded
      have split : ∀ k, ((a :: rest).filter (f · == k)).length =
          (rest.filter (f · == k)).length + if f a = k then 1 else 0 := by
        intro k
        by_cases same : f a = k
        · simp [same]
        · simp [same]
      rw [Finset.sum_congr rfl fun k _ => split k, Finset.sum_add_distrib, ih bounded,
        Finset.sum_ite_eq, if_pos (Finset.mem_range.mpr inside), List.length_cons]

/-- The declared type of an identity carries a mark. -/
def Registry.marked (schema : Registry) (mark : Annotations → Bool) (type : EntityId) : Bool :=
  (schema.entity? type).any (mark ·.annotations)

theorem Registry.marked_eq {schema : Registry} {mark : Annotations → Bool} {type : EntityId}
    {entity : EntityType} (declared : schema.entity? type = some entity) :
    schema.marked mark type = mark entity.annotations := by
  rw [marked, declared]
  rfl

namespace InstanceRegistry

/-- Instances with the given ids and records, numbered type by type in their order. -/
def numbered (accepted : List (String × Record)) : List Instance :=
  accepted.foldl (fun done (id, record) => done ++
    [{ id, record, ordinal := (done.filter (·.type == record.type)).length }]) []

/-! ### Numbers are positions -/

theorem numbered_concat (accepted : List (String × Record)) (id : String) (record : Record) :
    numbered (accepted ++ [(id, record)]) = numbered accepted ++
      [{ id, record, ordinal := ((numbered accepted).filter (·.type == record.type)).length }] := by
  rw [numbered, List.foldl_append]
  rfl

/-- Numbering keeps the entries and their order. -/
theorem map_numbered (accepted : List (String × Record)) :
    (numbered accepted).map (fun i => (i.id, i.record)) = accepted := by
  induction accepted using List.reverseRecOn with
  | nil => rfl
  | append_singleton accepted entry ih =>
      rw [numbered_concat, List.map_append, ih]
      rfl

@[simp] theorem length_numbered (accepted : List (String × Record)) :
    (numbered accepted).length = accepted.length := by
  rw [← congrArg List.length (map_numbered accepted), List.length_map]

variable {accepted : List (String × Record)} {type : EntityId}

/-- **The ordinal of an instance is its place among those of its type.** -/
theorem getElem?_filter_numbered {n : Nat} {i : Instance} :
    ((numbered accepted).filter (·.type == type))[n]? = some i ↔
      i ∈ numbered accepted ∧ i.type = type ∧ i.ordinal = n := by
  induction accepted using List.reverseRecOn generalizing n i with
  | nil => simp [numbered]
  | append_singleton accepted entry ih =>
      obtain ⟨id, record⟩ := entry
      rw [numbered_concat, filter_concat, List.mem_append, List.mem_singleton]
      split
      · rename_i here
        have same : record.type = type := beq_iff_eq.mp here
        rw [getElem?_concat_eq_some_iff, ih, same]
        constructor
        · rintro (old | ⟨rfl, rfl⟩)
          · exact ⟨.inl old.1, old.2⟩
          · exact ⟨.inr rfl, same, rfl⟩
        · rintro ⟨old | rfl, here, rfl⟩
          · exact .inl ⟨old, here, rfl⟩
          · exact .inr ⟨rfl, rfl⟩
      · rename_i elsewhere
        have other : record.type ≠ type := fun same => elsewhere (beq_iff_eq.mpr same)
        rw [ih]
        constructor
        · rintro ⟨old, here⟩
          exact ⟨.inl old, here⟩
        · rintro ⟨old | rfl, here, rfl⟩
          · exact ⟨old, here, rfl⟩
          · exact absurd here other

/-- Keys tell instances apart. -/
theorem key_inj {i j : Instance} (memI : i ∈ numbered accepted) (memJ : j ∈ numbered accepted)
    (same : i.key = j.key) : i = j := by
  obtain ⟨sameType, sameOrdinal⟩ := InstanceKey.mk.inj same
  have first := getElem?_filter_numbered.mpr ⟨memI, sameType, sameOrdinal⟩
  have second := getElem?_filter_numbered.mpr ⟨memJ, rfl, rfl⟩
  exact Option.some.inj (first.symm.trans second)

/-- A further instance has a key of its own. -/
theorem key_ne_of_mem_numbered {i j : Instance} (mem : i ∈ numbered accepted)
    (counted : j.ordinal = ((numbered accepted).filter (·.type == j.type)).length) :
    i.key ≠ j.key := by
  intro same
  obtain ⟨sameType, sameOrdinal⟩ := InstanceKey.mk.inj same
  have inside := getElem?_filter_numbered.mpr ⟨mem, sameType, sameOrdinal⟩
  rw [counted, List.getElem?_length] at inside
  cases inside

theorem nodup_map_key (accepted : List (String × Record)) :
    ((numbered accepted).map Instance.key).Nodup := by
  induction accepted using List.reverseRecOn with
  | nil => exact List.nodup_nil
  | append_singleton accepted entry ih =>
      rw [numbered_concat, List.map_append]
      refine List.nodup_append.mpr ⟨ih, List.nodup_singleton _, fun key mem other last => ?_⟩
      obtain ⟨i, old, rfl⟩ := List.mem_map.mp mem
      rw [List.mem_singleton.mp last]
      exact key_ne_of_mem_numbered old rfl

/-! ### Views of the contents -/

/-- The keys of the instances whose types carry a mark. -/
def keysMarked (schema : Registry) (mark : Annotations → Bool)
    (accepted : List (String × Record)) : List InstanceKey :=
  ((numbered accepted).filter (schema.marked mark ·.type)).map Instance.key

/-- The registry contains exactly the accepted instances, in this order, in all its places. -/
structure Keeps (r : InstanceRegistry) (schema : Registry) (accepted : List (String × Record)) :
    Prop where
  instancesOf_eq : ∀ type, r.instancesOf type = (numbered accepted).filter (·.type == type)
  ordinalOf?_iff : ∀ type id n, r.ordinalOf? type id = some n ↔
    ∃ i ∈ numbered accepted, i.type = type ∧ i.id = id ∧ i.ordinal = n
  fungible_eq : r.fungible = keysMarked schema Annotations.fungible accepted
  unique_eq : r.unique = keysMarked schema Annotations.nft accepted
  /-- Token numbers are positions as far as words of 32 bits go. -/
  tokenId?_iff : ∀ key n, r.tokenId? key = some n ↔
    ∃ place, r.fungible[place]? = some key ∧ n = place % capacity
  size_eq : r.size = accepted.length
  /-- Instances have declared types that may have instances. -/
  declared : ∀ i ∈ numbered accepted, ∃ entity, schema.entity? i.type = some entity ∧
    entity.isAbstract = false ∧ entity.isCatalog = false

variable {r : InstanceRegistry} {schema schema' : Registry}

theorem keeps_empty : Keeps {} schema [] where
  instancesOf_eq _ := rfl
  ordinalOf?_iff type id n := by simp [ordinalOf?, numbered, SortedMap.find?]
  fungible_eq := rfl
  unique_eq := rfl
  tokenId?_iff key n := by simp [tokenId?, SortedMap.find?]
  size_eq := rfl
  declared i mem := (List.not_mem_nil mem).elim

theorem Keeps.close (keeps : r.Keeps schema accepted) : r.close.Keeps schema accepted where
  instancesOf_eq := keeps.instancesOf_eq
  ordinalOf?_iff := keeps.ordinalOf?_iff
  fungible_eq := keeps.fungible_eq
  unique_eq := keeps.unique_eq
  tokenId?_iff := keeps.tokenId?_iff
  size_eq := keeps.size_eq
  declared := keeps.declared

/-- Declared types keep their marks while the schema grows. -/
theorem Keeps.keysMarked_extends (keeps : r.Keeps schema accepted) (ext : schema.Extends schema')
    (mark : Annotations → Bool) :
    keysMarked schema mark accepted = keysMarked schema' mark accepted := by
  unfold keysMarked
  refine congrArg _ (List.filter_congr fun i mem => ?_)
  obtain ⟨entity, found, _⟩ := keeps.declared i mem
  rw [Registry.marked_eq found, Registry.marked_eq (ext.entity? i.type entity found)]

/-- The contents stay what they are while the schema grows. -/
theorem Keeps.extend (keeps : r.Keeps schema accepted) (ext : schema.Extends schema') :
    r.Keeps schema' accepted where
  instancesOf_eq := keeps.instancesOf_eq
  ordinalOf?_iff := keeps.ordinalOf?_iff
  fungible_eq := by rw [keeps.fungible_eq, keeps.keysMarked_extends ext]
  unique_eq := by rw [keeps.unique_eq, keeps.keysMarked_extends ext]
  tokenId?_iff := keeps.tokenId?_iff
  size_eq := keeps.size_eq
  declared i mem := by
    obtain ⟨entity, found, concrete⟩ := keeps.declared i mem
    exact ⟨entity, ext.entity? i.type entity found, concrete⟩

variable {id : String} {record : Record} {entity : EntityType}

theorem Keeps.numbered_next (keeps : r.Keeps schema accepted) :
    numbered (accepted ++ [(id, record)]) = numbered accepted ++ [r.next id record] := by
  rw [numbered_concat, next, keeps.instancesOf_eq]

theorem Keeps.notMem_fungible (keeps : r.Keeps schema accepted) (id : String) (record : Record) :
    (r.next id record).key ∉ r.fungible := by
  rw [keeps.fungible_eq]
  intro mem
  obtain ⟨i, kept, same⟩ := List.mem_map.mp mem
  refine key_ne_of_mem_numbered (List.mem_of_mem_filter kept) ?_ same
  rw [← keeps.instancesOf_eq]
  rfl

/-- A further instance is listed if its type carries the mark. -/
theorem Keeps.keysMarked_next (keeps : r.Keeps schema accepted)
    (declared : schema.entity? record.type = some entity) (mark : Annotations → Bool) :
    keysMarked schema mark (accepted ++ [(id, record)]) =
      if mark entity.annotations then
        keysMarked schema mark accepted ++ [(r.next id record).key]
      else keysMarked schema mark accepted := by
  have marked : schema.marked mark (r.next id record).type = mark entity.annotations :=
    Registry.marked_eq declared
  unfold keysMarked
  rw [keeps.numbered_next, filter_concat, marked]
  split
  · exact List.map_append
  · rfl

/-- A new id is found at the new place, every other one where it was. -/
theorem Keeps.ordinalOf?_enter_iff (keeps : r.Keeps schema accepted)
    (fresh : r.ordinalOf? record.type id = none) (type : EntityId) (id' : String) (n : Nat) :
    (r.enter entity (r.next id record)).ordinalOf? type id' = some n ↔
      ∃ i ∈ numbered accepted ++ [r.next id record], i.type = type ∧ i.id = id' ∧ i.ordinal = n := by
  have new : ∀ i ∈ numbered accepted, ¬ (i.type = record.type ∧ i.id = id) := by
    rintro i mem ⟨sameType, sameId⟩
    have found := (keeps.ordinalOf?_iff record.type id i.ordinal).mpr
      ⟨i, mem, sameType, sameId, rfl⟩
    rw [fresh] at found
    cases found
  rw [ordinalOf?_enter]
  split
  · rename_i same
    obtain ⟨rfl, rfl⟩ := same
    constructor
    · intro found
      exact ⟨_, List.mem_append_right _ (List.mem_singleton.mpr rfl), rfl, rfl,
        Option.some.inj found⟩
    · rintro ⟨i, mem, sameType, sameId, rfl⟩
      rcases List.mem_append.mp mem with old | last
      · exact absurd ⟨sameType, sameId⟩ (new i old)
      · rw [List.mem_singleton.mp last]
  · rename_i other
    rw [keeps.ordinalOf?_iff]
    constructor
    · rintro ⟨i, mem, here⟩
      exact ⟨i, List.mem_append_left _ mem, here⟩
    · rintro ⟨i, mem, sameType, sameId, rfl⟩
      rcases List.mem_append.mp mem with old | last
      · exact ⟨i, old, sameType, sameId, rfl⟩
      · rw [List.mem_singleton.mp last] at sameType sameId
        exact absurd ⟨sameType.symm, sameId.symm⟩ other

/-- A new key gets the number of its place, every other one keeps its own. -/
theorem tokenId?_enter_iff {i : Instance} (absent : i.key ∉ r.fungible)
    (places : ∀ key n, r.tokenId? key = some n ↔
      ∃ place, r.fungible[place]? = some key ∧ n = place % capacity) (key : InstanceKey) (n : Nat) :
    (r.enter entity i).tokenId? key = some n ↔
      ∃ place, (r.enter entity i).fungible[place]? = some key ∧ n = place % capacity := by
  rw [tokenId?_enter, fungible_enter]
  cases entity.annotations.fungible with
  | false => simpa using places key n
  | true =>
      simp only [true_and, if_true, getElem?_concat_eq_some_iff]
      split
      · rename_i same
        rw [same]
        constructor
        · intro found
          exact ⟨_, .inr ⟨rfl, rfl⟩, (Option.some.inj found).symm⟩
        · rintro ⟨place, old | ⟨rfl, _⟩, rfl⟩
          · exact absurd (List.mem_of_getElem? old) absent
          · rfl
      · rename_i other
        rw [places]
        constructor
        · rintro ⟨place, old, rfl⟩
          exact ⟨place, .inl old, rfl⟩
        · rintro ⟨place, old | ⟨_, last⟩, rfl⟩
          · exact ⟨place, old, rfl⟩
          · exact absurd last other

/-- **A registration adds its instance to every view.** -/
theorem Keeps.enter (keeps : r.Keeps schema accepted) (admits : r.Admits schema id record entity) :
    (r.enter entity (r.next id record)).Keeps schema (accepted ++ [(id, record)]) where
  instancesOf_eq type := by
    rw [instancesOf_enter, keeps.numbered_next, filter_concat, ← keeps.instancesOf_eq]
    exact if_congr (eq_comm.trans beq_iff_eq.symm) rfl rfl
  ordinalOf?_iff type id' n := by
    rw [keeps.numbered_next]
    exact keeps.ordinalOf?_enter_iff admits.fresh type id' n
  fungible_eq := by
    rw [fungible_enter, keeps.keysMarked_next admits.declared, keeps.fungible_eq]
  unique_eq := by
    rw [unique_enter, keeps.keysMarked_next admits.declared, keeps.unique_eq]
  tokenId?_iff := tokenId?_enter_iff (keeps.notMem_fungible id record) keeps.tokenId?_iff
  size_eq := by
    rw [size_enter admits.fresh, keeps.size_eq, List.length_append]
    rfl
  declared i mem := by
    rw [keeps.numbered_next] at mem
    rcases List.mem_append.mp mem with old | last
    · exact keeps.declared i old
    · rw [List.mem_singleton.mp last]
      exact ⟨entity, admits.declared, admits.concrete, admits.noCatalog⟩

end InstanceRegistry

end EntityForge
