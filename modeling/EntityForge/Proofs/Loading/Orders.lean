import EntityForge.Proofs.Loading.Documents

/-!
Documents in another order. An entry converts to the same record wherever it stands, and whether all
entries are accepted depends on which records there are, not on their order: ids must differ within
each type, and each type must have room (`exists_load_iff`). So a permutation of the documents loads
as a permutation of the accepted entries (`Loadable.perm`), and the two registries differ in their
numbers only (`load_perm`).
-/

namespace EntityForge

namespace InstanceRegistry

/-- The instances that keys name, each by its type, its id and its record. -/
def described (r : InstanceRegistry) (keys : List InstanceKey) :
    List (EntityId × Option (String × Record)) :=
  keys.map fun key => (key.type, (r.instance? key).map fun i => (i.id, i.record))

/-- Two registries contain the same instances, up to their ordinals and token numbers. -/
structure SameContents (r r' : InstanceRegistry) : Prop where
  instances : ∀ type, ((r.instancesOf type).map fun i => (i.id, i.record)).Perm
    ((r'.instancesOf type).map fun i => (i.id, i.record))
  /-- Both have as many instances of each type. -/
  counts : ∀ type, (r.instancesOf type).length = (r'.instancesOf type).length
  fungible : (r.described r.fungible).Perm (r'.described r'.fungible)
  unique : (r.described r.unique).Perm (r'.described r'.unique)

variable {r r' : InstanceRegistry} {schema : Registry} {accepted accepted' : List (String × Record)}

/-- The instances on a list of marked keys are the accepted entries of the marked types. -/
theorem Keeps.described_keysMarked (keeps : r.Keeps schema accepted) (mark : Annotations → Bool) :
    r.described (keysMarked schema mark accepted) =
      (accepted.filter (schema.marked mark ·.2.type)).map fun new => (new.2.type, some new) := by
  have found : ∀ i ∈ (numbered accepted).filter (schema.marked mark ·.type),
      (i.key.type, (r.instance? i.key).map fun i => (i.id, i.record)) =
        (i.record.type, some (i.id, i.record)) := by
    intro i mem
    rw [keeps.instance?_iff.mpr ⟨List.mem_of_mem_filter mem, rfl⟩]
    rfl
  have entries := congrArg (List.filter (schema.marked mark ·.2.type)) (map_numbered accepted)
  rw [List.filter_map] at entries
  rw [described, keysMarked, List.map_map, ← entries, List.map_map]
  exact List.map_congr_left found

/-- Registries of the same entries have the same contents. -/
theorem Keeps.sameContents (keeps : r.Keeps schema accepted) (keeps' : r'.Keeps schema accepted')
    (perm : accepted.Perm accepted') : r.SameContents r' := by
  have instances : ∀ type, ((r.instancesOf type).map fun i => (i.id, i.record)).Perm
      ((r'.instancesOf type).map fun i => (i.id, i.record)) := by
    intro type
    rw [keeps.map_instancesOf, keeps'.map_instancesOf]
    exact perm.filter _
  have marked : ∀ mark, (r.described (keysMarked schema mark accepted)).Perm
      (r'.described (keysMarked schema mark accepted')) := by
    intro mark
    rw [keeps.described_keysMarked, keeps'.described_keysMarked]
    exact (perm.filter _).map _
  refine ⟨instances, fun type => by simpa using (instances type).length_eq, ?_, ?_⟩
  · rw [keeps.fungible_eq, keeps'.fungible_eq]
    exact marked Annotations.fungible
  · rw [keeps.unique_eq, keeps'.unique_eq]
    exact marked Annotations.nft

end InstanceRegistry

namespace Loading

variable {schema : Registry} {catalog : EntityType} {accepted accepted' : List (String × Record)}
  {r r' : InstanceRegistry} {documents documents' : List Document}

/-! ### Room -/

/-- No type has more instances than ordinals tell apart. -/
def Bounded (accepted : List (String × Record)) : Prop :=
  ∀ type, (accepted.filter (·.2.type == type)).length ≤ InstanceRegistry.capacity

/-- A registration finds room for its instance, so the types stay bounded. -/
theorem bounded_of_registerFor {item : Field × String × Json}
    (run : registerFor schema catalog r item = .ok r')
    (bounded : ∀ type, (r.instancesOf type).length ≤ InstanceRegistry.capacity) (type : EntityId) :
    (r'.instancesOf type).length ≤ InstanceRegistry.capacity := by
  obtain ⟨_, _, registered⟩ := registerFor_eq_ok_iff.mp run
  obtain ⟨id, record, entity, _, admits, rfl⟩ := registerEntry_eq_ok_iff.mp registered
  rw [InstanceRegistry.instancesOf_enter]
  split
  · rename_i same
    rw [List.length_append, same]
    exact admits.room
  · exact bounded type

/-- **Documents are loaded exactly when their entries can be accepted**, in whatever order: the
conditions on the accepted entries do not look at it. -/
theorem exists_load_iff (reachable : schema.Reachable) (hasCatalog : schema.catalog? = some catalog) :
    (∃ r, load schema documents = .ok r) ↔
      ∃ accepted, Loadable schema catalog documents accepted ∧ Bounded accepted := by
  have differ := catalog_differ reachable hasCatalog
  constructor
  · rintro ⟨r, run⟩
    obtain ⟨fits, lists, instances, all, rfl⟩ := (load_eq_ok_iff hasCatalog differ).mp run
    obtain ⟨accepted, converts, taken⟩ := (takes_empty schema).registerAll all
    rw [List.nil_append] at taken
    have bounded := foldlM_preserves
      (P := fun r => ∀ type, (r.instancesOf type).length ≤ InstanceRegistry.capacity)
      (fun _ _ _ _ step bounded => bounded_of_registerFor step bounded) all
      (fun _ => Nat.zero_le _)
    refine ⟨accepted, ⟨fits, lists, converts, taken.noCatalog, taken.nodup⟩, fun type => ?_⟩
    rw [← taken.keeps.map_instancesOf, List.length_map]
    exact bounded type
  · rintro ⟨accepted, loadable, bounded⟩
    obtain ⟨instances, all⟩ := (takes_empty schema).exists_registerAll_of_room catalog
      reachable.consistent loadable.converts loadable.noCatalog loadable.distinct bounded
    exact ⟨_, (load_eq_ok_iff hasCatalog differ).mpr
      ⟨loadable.fits, loadable.lists, instances, all, rfl⟩⟩

/-! ### Permutations -/

/-- An entry converts to one record under one id. -/
theorem ConvertsFor.unique {item : Field × Written} {new new' : String × Record}
    (converts : ConvertsFor schema item new) (converts' : ConvertsFor schema item new') :
    new = new' := by
  obtain ⟨element, lists, converted, found⟩ := converts
  obtain ⟨element', lists', converted', found'⟩ := converts'
  have same : element = element' := by
    rcases lists with lists | lists <;> rcases lists' with lists' | lists' <;>
      simp_all
  subst same
  rw [converted] at converted'
  have records := Except.ok.inj converted'
  rw [records, found'] at found
  exact Prod.ext (Value.string.inj (Option.some.inj found)).symm records

/-- The entries of permuted documents are permuted, field by field. -/
theorem ordered_written_perm (catalog : EntityType) (perm : documents.Perm documents') :
    (ordered catalog (written documents)).Perm (ordered catalog (written documents')) :=
  List.Perm.flatMap_left _ fun _ _ => ((perm.flatMap_right _).filter _).map _

/-- **Permuted documents are loaded as a permutation of the entries.** -/
theorem Loadable.perm (loadable : Loadable schema catalog documents accepted)
    (perm : documents.Perm documents') :
    ∃ accepted', Loadable schema catalog documents' accepted' ∧ accepted.Perm accepted' := by
  obtain ⟨accepted', converts, same⟩ :=
    List.perm_comp_forall₂ (ordered_written_perm catalog perm).symm loadable.converts
  refine ⟨accepted', ⟨?_, loadable.lists, converts, ?_, ?_⟩, same.symm⟩
  · exact fun document mem => loadable.fits document (perm.mem_iff.mpr mem)
  · exact fun new mem => loadable.noCatalog new (same.mem_iff.mp mem)
  · exact (same.map _).nodup_iff.mpr loadable.distinct

/-- Documents are loaded as one list of entries only. -/
theorem Loadable.unique (loadable : Loadable schema catalog documents accepted)
    (loadable' : Loadable schema catalog documents accepted') : accepted = accepted' :=
  List.right_unique_forall₂' (fun _ _ _ first second => first.unique second) loadable.converts
    loadable'.converts

/-- **The order of the documents affects numbers only.** Permuted documents are loaded or refused
together, and what is loaded is the same up to ordinals and token numbers. -/
theorem load_perm (reachable : schema.Reachable) (perm : documents.Perm documents') :
    ((∃ r, load schema documents = .ok r) ↔ ∃ r', load schema documents' = .ok r') ∧
      ∀ r r', load schema documents = .ok r → load schema documents' = .ok r' →
        r.SameContents r' := by
  cases hasCatalog : schema.catalog? with
  | none =>
      have refused : ∀ documents r, load schema documents ≠ .ok r := by
        intro documents r run
        obtain ⟨catalog, found, _⟩ := bind_eq_ok_iff.mp run
        rw [catalogOf, hasCatalog] at found
        cases found
      refine ⟨⟨?_, ?_⟩, fun r _ run _ => (refused documents r run).elim⟩
      · rintro ⟨r, run⟩
        exact (refused documents r run).elim
      · rintro ⟨r, run⟩
        exact (refused documents' r run).elim
  | some catalog =>
      have carries : ∀ {documents documents' : List Document}, documents.Perm documents' →
          (∃ r, load schema documents = .ok r) → ∃ r, load schema documents' = .ok r := by
        intro documents documents' perm loads
        obtain ⟨accepted, loadable, bounded⟩ := (exists_load_iff reachable hasCatalog).mp loads
        obtain ⟨accepted', loadable', same⟩ := loadable.perm perm
        refine (exists_load_iff reachable hasCatalog).mpr ⟨accepted', loadable', fun type => ?_⟩
        rw [← (same.filter _).length_eq]
        exact bounded type
      refine ⟨⟨carries perm, carries perm.symm⟩, fun r r' run run' => ?_⟩
      obtain ⟨accepted, instances, loadable, taken, rfl⟩ :=
        loadable_of_load reachable hasCatalog run
      obtain ⟨accepted', instances', loadable', taken', rfl⟩ :=
        loadable_of_load reachable hasCatalog run'
      obtain ⟨permuted, other, same⟩ := loadable.perm perm
      rw [other.unique loadable'] at same
      exact taken.keeps.close.sameContents taken'.keeps.close same

/-- Read from the last document to the first, the gems change places: the ruby is the first in one
registry and the second in the other. -/
theorem load_perm_rewards : rewardFiles.Perm rewardFiles.reverse ∧
    ∃ r r', load rewards rewardFiles = .ok r ∧ load rewards rewardFiles.reverse = .ok r' ∧
      r.ordinalOf? ⟨2⟩ "ruby" = some 0 ∧ r'.ordinalOf? ⟨2⟩ "ruby" = some 1 ∧ r.SameContents r' := by
  have forward : (load rewards rewardFiles).map (·.ordinalOf? ⟨2⟩ "ruby") = .ok (some 0) := by
    decide +kernel
  have backward : (load rewards rewardFiles.reverse).map (·.ordinalOf? ⟨2⟩ "ruby") =
      .ok (some 1) := by decide +kernel
  obtain ⟨r, run, first⟩ := map_eq_ok_iff.mp forward
  obtain ⟨r', run', second⟩ := map_eq_ok_iff.mp backward
  have perm := (List.reverse_perm rewardFiles).symm
  exact ⟨perm, r, r', run, run', first, second, (load_perm ⟨_, rfl⟩ perm).2 r r' run run'⟩

end Loading

end EntityForge
