import EntityForge.Instances.Registry
import EntityForge.Proofs.Schema.Validation

/-!
What a registration tests and what it changes.

`Admits` says what the tests ask for and `enter` what the changes come to; `run_register_eq_ok_iff`
ties both to the operation. A failing registration leaves the registry as it was
(`register_error_unchanged`): the one change in front of a test is to give a type its first bucket,
and the test after it fails for full buckets only. The views of `enter` say, collection by
collection, that the new instance is added and nothing else changes.
-/

namespace EntityForge.InstanceRegistry

variable {r r' : InstanceRegistry} {schema : Registry} {id : String} {record : Record}
  {entity : EntityType} {type : EntityId} {key : InstanceKey}

/-- A registration passes its tests; `entity` is the type of the new instance. -/
structure Admits (r : InstanceRegistry) (schema : Registry) (id : String) (record : Record)
    (entity : EntityType) : Prop where
  isOpen : r.isSealed = false
  declared : schema.entity? record.type = some entity
  concrete : entity.isAbstract = false
  noCatalog : entity.isCatalog = false
  fresh : r.ordinalOf? record.type id = none
  room : (r.instancesOf record.type).length < capacity

/-- The instance that a registration adds. -/
def next (r : InstanceRegistry) (id : String) (record : Record) : Instance :=
  { id, ordinal := (r.instancesOf record.type).length, record }

/-- The registry with an instance in all its places. -/
def enter (r : InstanceRegistry) (entity : EntityType) (i : Instance) : InstanceRegistry :=
  ((r.openBucket i.type).store i).enlist entity.annotations i.key

/-! ### What the tests say -/

theorem checkOpen_eq_ok_iff : r.checkOpen = .ok () ↔ r.isSealed = false := by
  unfold checkOpen
  cases r.isSealed <;> simp [fail]

theorem checkKind_eq_ok_iff :
    checkKind entity id = .ok () ↔ entity.isAbstract = false ∧ entity.isCatalog = false := by
  unfold checkKind
  cases entity.isAbstract <;> cases entity.isCatalog <;> simp [fail]

theorem checkId_eq_ok_iff : r.checkId entity type id = .ok () ↔ r.ordinalOf? type id = none := by
  unfold checkId
  cases r.ordinalOf? type id <;> simp [fail]

theorem nextOrdinal_eq_ok_iff {ordinal : Nat} :
    r.nextOrdinal entity type = .ok ordinal ↔
      (r.instancesOf type).length < capacity ∧ ordinal = (r.instancesOf type).length := by
  unfold nextOrdinal
  split
  · simp [*, eq_comm]
  · simp [*, fail]

/-! ### Views of the changes -/

theorem bucket?_openBucket (other : EntityId) :
    (r.openBucket type).bucket? other =
      if other = type then some (r.instancesOf type) else r.bucket? other := by
  unfold openBucket instancesOf
  cases opened : r.bucket? type with
  | some bucket =>
      by_cases same : other = type
      · rw [if_pos same, same]
        exact opened
      · rw [if_neg same]
        rfl
  | none => exact SortedMap.find?_insert type other [] r.buckets

theorem instancesOf_openBucket (other : EntityId) :
    (r.openBucket type).instancesOf other = r.instancesOf other := by
  rw [instancesOf, bucket?_openBucket]
  split
  · rename_i same
    rw [same]
    rfl
  · rfl

/-- A bucket with instances is open already. -/
theorem openBucket_eq_self (filled : r.instancesOf type ≠ []) : r.openBucket type = r := by
  unfold openBucket
  cases opened : r.bucket? type with
  | some bucket => rfl
  | none =>
      rw [instancesOf, opened] at filled
      exact absurd rfl filled

theorem instancesOf_enter (i : Instance) :
    (r.enter entity i).instancesOf type =
      if type = i.type then r.instancesOf type ++ [i] else r.instancesOf type := by
  have stored : (r.enter entity i).bucket? type =
      if type = i.type then some ((r.openBucket i.type).instancesOf i.type ++ [i])
      else (r.openBucket i.type).bucket? type :=
    SortedMap.find?_insert i.type type _ _
  rw [instancesOf, stored]
  split
  · rename_i same
    rw [instancesOf_openBucket, same]
    rfl
  · exact instancesOf_openBucket type

theorem ordinalOf?_enter (i : Instance) :
    (r.enter entity i).ordinalOf? type id =
      if type = i.type ∧ id = i.id then some i.ordinal else r.ordinalOf? type id := by
  have stored : (r.enter entity i).ordinalOf? type id =
      if (type, id) = (i.type, i.id) then some i.ordinal else r.ordinalOf? type id :=
    SortedMap.find?_insert (i.type, i.id) (type, id) i.ordinal r.byId
  simp only [stored, Prod.mk.injEq]

theorem tokenId?_enter (i : Instance) :
    (r.enter entity i).tokenId? key =
      if entity.annotations.fungible = true ∧ key = i.key then some (r.fungible.length % capacity)
      else r.tokenId? key := by
  unfold tokenId?
  change SortedMap.find? compare key (if entity.annotations.fungible then _ else _) = _
  cases entity.annotations.fungible with
  | true => simp [SortedMap.find?_insert, openBucket, store]
  | false => rfl

theorem fungible_enter (i : Instance) : (r.enter entity i).fungible =
    if entity.annotations.fungible then r.fungible ++ [i.key] else r.fungible := rfl

theorem unique_enter (i : Instance) : (r.enter entity i).unique =
    if entity.annotations.nft then r.unique ++ [i.key] else r.unique := rfl

theorem size_enter {i : Instance} (fresh : r.ordinalOf? i.type i.id = none) :
    (r.enter entity i).size = r.size + 1 :=
  SortedMap.length_insert i.ordinal fresh

/-! ### Registrations -/

/-- A registration succeeds exactly when it passes its tests, and then enters its instance. -/
theorem run_register_eq_ok_iff :
    (Update.register schema id record).run r = .ok key r' ↔
      ∃ entity, r.Admits schema id record entity ∧ key = (r.next id record).key ∧
        r' = r.enter entity (r.next id record) := by
  unfold Update.register
  simp only [run_bind_eq_ok_iff, run_test_eq_ok_iff]
  constructor
  · rintro ⟨_, _, ⟨isOpen, rfl⟩, entity, _, ⟨declared, rfl⟩, _, _, ⟨kind, rfl⟩, _, _, ⟨fresh, rfl⟩,
      _, _, opened, ordinal, _, ⟨counted, rfl⟩, _, _, stored, _, _, listed, done⟩
    cases opened
    cases stored
    cases listed
    cases done
    obtain ⟨concrete, noCatalog⟩ := checkKind_eq_ok_iff.mp kind
    obtain ⟨room, rfl⟩ := nextOrdinal_eq_ok_iff.mp counted
    simp only [instancesOf_openBucket] at room
    refine ⟨entity, ⟨checkOpen_eq_ok_iff.mp isOpen, Registry.get_eq_ok_iff.mp declared, concrete,
      noCatalog, checkId_eq_ok_iff.mp fresh, room⟩, ?_, ?_⟩
    · rw [instancesOf_openBucket]
      rfl
    · rw [instancesOf_openBucket]
      rfl
  · rintro ⟨entity, admits, rfl, rfl⟩
    refine ⟨(), r, ⟨checkOpen_eq_ok_iff.mpr admits.isOpen, rfl⟩, entity, r,
      ⟨Registry.get_eq_ok_iff.mpr admits.declared, rfl⟩, (), r,
      ⟨checkKind_eq_ok_iff.mpr ⟨admits.concrete, admits.noCatalog⟩, rfl⟩, (), r,
      ⟨checkId_eq_ok_iff.mpr admits.fresh, rfl⟩, (), r.openBucket record.type, rfl,
      (r.instancesOf record.type).length, r.openBucket record.type, ⟨?_, rfl⟩, (), _, rfl, (), _, rfl,
      rfl⟩
    rw [nextOrdinal_eq_ok_iff, instancesOf_openBucket]
    exact ⟨admits.room, rfl⟩

/-- **A failing registration changes nothing.** -/
theorem register_error_unchanged {e : Error}
    (failed : (Update.register schema id record).run r = .error e r') : r' = r := by
  unfold Update.register at failed
  simp only [run_bind_eq_error_iff, run_test_eq_ok_iff, run_test_eq_error_iff] at failed
  rcases failed with ⟨_, same⟩ | ⟨_, _, ⟨_, rfl⟩, ⟨_, same⟩ | ⟨entity, _, ⟨_, rfl⟩, ⟨_, same⟩ |
    ⟨_, _, ⟨_, rfl⟩, ⟨_, same⟩ | ⟨_, _, ⟨_, rfl⟩, opened | ⟨_, _, opened, failed⟩⟩⟩⟩⟩
  · exact same
  · exact same
  · exact same
  · exact same
  · cases opened
  · cases opened
    rcases failed with ⟨full, rfl⟩ | ⟨_, _, _, stored | ⟨_, _, _, listed | ⟨_, _, _, done⟩⟩⟩
    · refine openBucket_eq_self fun empty => ?_
      rw [nextOrdinal, instancesOf_openBucket, empty, if_pos (by decide)] at full
      cases full
    · cases stored
    · cases listed
    · cases done

end EntityForge.InstanceRegistry
