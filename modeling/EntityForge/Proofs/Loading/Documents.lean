import EntityForge.Proofs.Loading.Entries
import EntityForge.Proofs.Loading.Merging

/-!
What loading documents comes to. The merged lists are registered one after the other, so the
registrations go through the entries in the order of the catalog (`foldlM_registerField_eq_ok_iff`),
and each adds its entry to the accepted ones. `Loadable` says which documents are loaded and as what,
and `load_exact` that the registry then contains exactly their entries, in this order.
-/

namespace EntityForge.Loading

variable {schema : Registry} {catalog : EntityType} {accepted : List (String × Record)}
  {r r' : InstanceRegistry} {documents : List Document}

/-- Registers an entry for a field. -/
def registerFor (schema : Registry) (catalog : EntityType) (instances : InstanceRegistry)
    (item : Field × String × Json) : Except Error InstanceRegistry := do
  let element ← catalogElement schema catalog item.1
  registerEntry schema element instances item.2

theorem registerFor_eq_ok_iff {item : Field × String × Json} :
    registerFor schema catalog r item = .ok r' ↔ ∃ element, item.1.type.ListsEntities element ∧
      registerEntry schema element r item.2 = .ok r' := by
  unfold registerFor
  simp only [bind_eq_ok_iff, catalogElement_eq_ok_iff]

/-- The entries of a field are registered one by one, once their type is known. -/
theorem registerField_eq {field : Field} {element : EntityId} (entries : Entries)
    (found : catalogElement schema catalog field = .ok element) :
    registerField schema catalog r (field, entries) =
      (entries.map (field, ·)).foldlM (registerFor schema catalog) r := by
  unfold registerField
  rw [found, List.foldlM_map]
  simp only [registerFor, found]
  rfl

/-- Merged lists are registered entry by entry, if all are lists of entities. -/
theorem foldlM_registerField_eq_ok_iff {parts : List (Field × Entries)} :
    parts.foldlM (registerField schema catalog) r = .ok r' ↔
      (∀ part ∈ parts, ∃ element, part.1.type.ListsEntities element) ∧
        (parts.flatMap fun part => part.2.map (part.1, ·)).foldlM (registerFor schema catalog) r =
          .ok r' := by
  induction parts generalizing r with
  | nil => simp
  | cons part rest ih =>
      obtain ⟨field, entries⟩ := part
      rw [List.foldlM_cons, List.forall_mem_cons, List.flatMap_cons, List.foldlM_append]
      simp only [bind_eq_ok_iff, ih]
      constructor
      · rintro ⟨middle, first, lists, others⟩
        obtain ⟨element, found, _⟩ := bind_eq_ok_iff.mp first
        rw [registerField_eq entries found] at first
        exact ⟨⟨⟨element, catalogElement_eq_ok_iff.mp found⟩, lists⟩, middle, first, others⟩
      · rintro ⟨⟨⟨element, list⟩, lists⟩, middle, first, others⟩
        rw [← registerField_eq entries (catalogElement_eq_ok_iff.mpr list)] at first
        exact ⟨middle, first, lists, others⟩

/-- An entry for a field is converted where the field lists entities. -/
def ConvertsFor (schema : Registry) (item : Field × Written) (new : String × Record) : Prop :=
  ∃ element, item.1.type.ListsEntities element ∧ Converts schema element item.2.content new

/-- The entries are registered one after the other, each as what it converts to. -/
theorem Takes.registerAll {items : List (Field × Written)} (takes : Takes schema accepted r)
    (run : (items.map fun (field, w) => (field, w.source, w.content)).foldlM
      (registerFor schema catalog) r = .ok r') :
    ∃ news, List.Forall₂ (ConvertsFor schema) items news ∧ Takes schema (accepted ++ news) r' := by
  induction items generalizing accepted r with
  | nil =>
      obtain rfl : r = r' := Except.ok.inj run
      exact ⟨[], .nil, by rwa [List.append_nil]⟩
  | cons item rest ih =>
      rw [List.map_cons, List.foldlM_cons] at run
      obtain ⟨middle, first, others⟩ := bind_eq_ok_iff.mp run
      obtain ⟨element, lists, registered⟩ := registerFor_eq_ok_iff.mp first
      obtain ⟨new, converts, taken⟩ := takes.enter registered
      obtain ⟨news, follow, all⟩ := ih taken others
      refine ⟨new :: news, .cons ⟨element, lists, converts⟩ follow, ?_⟩
      rwa [List.append_assoc] at all

/-- Entries that convert to records with different ids, none of them of the catalog, are all
registered as long as every type has room for its own. -/
theorem Takes.exists_registerAll_of_room {items : List (Field × Written)}
    {news : List (String × Record)} (takes : Takes schema accepted r) (catalog : EntityType)
    (consistent : schema.Consistent) (converts : List.Forall₂ (ConvertsFor schema) items news)
    (noCatalog : ∀ new ∈ news, ∀ entity, schema.entity? new.2.type = some entity →
      entity.isCatalog = false)
    (distinct : ((accepted ++ news).map fun (id, record) => (record.type, id)).Nodup)
    (room : ∀ type, ((accepted ++ news).filter (·.2.type == type)).length ≤
      InstanceRegistry.capacity) :
    ∃ r', (items.map fun (field, w) => (field, w.source, w.content)).foldlM
      (registerFor schema catalog) r = .ok r' := by
  induction converts generalizing accepted r with
  | nil => exact ⟨r, rfl⟩
  | @cons item new items news convert _ ih =>
      obtain ⟨element, lists, convert⟩ := convert
      obtain ⟨first, others⟩ := List.forall_mem_cons.mp noCatalog
      have fresh : (new.2.type, new.1) ∉ accepted.map fun (id, record) => (record.type, id) := by
        intro old
        rw [List.map_append] at distinct
        exact (List.nodup_append.mp distinct).2.2 _ old _
          (List.mem_map_of_mem List.mem_cons_self) rfl
      have free : (accepted.filter (·.2.type == new.2.type)).length < InstanceRegistry.capacity := by
        have bound := room new.2.type
        simp only [List.filter_append, List.length_append, List.filter_cons, beq_self_eq_true,
          if_true, List.length_cons] at bound
        omega
      obtain ⟨middle, registered, taken⟩ := takes.exists_registerEntry
        consistent (item.2.source, item.2.content) convert first fresh free
      obtain ⟨r', run⟩ := ih taken others (by rwa [List.append_assoc])
        (by rwa [List.append_assoc])
      refine ⟨r', ?_⟩
      rw [List.map_cons, List.foldlM_cons]
      exact bind_eq_ok_iff.mpr
        ⟨middle, registerFor_eq_ok_iff.mpr ⟨element, lists, registered⟩, run⟩

/-- There is room for few entries, whatever their types are. -/
theorem Takes.exists_registerAll {items : List (Field × Written)} {news : List (String × Record)}
    (takes : Takes schema accepted r) (catalog : EntityType) (consistent : schema.Consistent)
    (converts : List.Forall₂ (ConvertsFor schema) items news)
    (noCatalog : ∀ new ∈ news, ∀ entity, schema.entity? new.2.type = some entity →
      entity.isCatalog = false)
    (distinct : ((accepted ++ news).map fun (id, record) => (record.type, id)).Nodup)
    (room : accepted.length + news.length ≤ InstanceRegistry.capacity) :
    ∃ r', (items.map fun (field, w) => (field, w.source, w.content)).foldlM
      (registerFor schema catalog) r = .ok r' := by
  refine takes.exists_registerAll_of_room catalog consistent converts noCatalog distinct fun type => ?_
  rw [← List.length_append] at room
  exact (List.length_filter_le _ _).trans room

/-! ### Documents -/

/-- Documents are loaded as the given ids and records, in the order of the entries. -/
structure Loadable (schema : Registry) (catalog : EntityType) (documents : List Document)
    (accepted : List (String × Record)) : Prop where
  fits : ∀ document ∈ documents, document.Fits catalog
  lists : ∀ field ∈ catalog.fields, ∃ element, field.type.ListsEntities element
  converts : List.Forall₂ (ConvertsFor schema) (ordered catalog (written documents)) accepted
  /-- No entry is of the kind of the catalog. -/
  noCatalog : ∀ new ∈ accepted, ∀ entity, schema.entity? new.2.type = some entity →
    entity.isCatalog = false
  /-- No two entries of a type have one id. -/
  distinct : (accepted.map fun (id, record) => (record.type, id)).Nodup

/-- Documents that fit are loaded by registering their entries in the order of the catalog. -/
theorem load_eq_ok_iff (hasCatalog : schema.catalog? = some catalog)
    (differ : (catalog.fields.map Field.name).Nodup) : load schema documents = .ok r ↔
      (∀ document ∈ documents, document.Fits catalog) ∧
      (∀ field ∈ catalog.fields, ∃ element, field.type.ListsEntities element) ∧
      ∃ instances, ((ordered catalog (written documents)).map
        fun (field, w) => (field, w.source, w.content)).foldlM (registerFor schema catalog) {} =
          .ok instances ∧ r = instances.close := by
  have catalogFound : catalogOf schema = .ok catalog := by rw [catalogOf, hasCatalog]
  have entrywise : ∀ merged, merge catalog documents = .ok merged →
      (catalog.fields.zip merged).flatMap (fun part => part.2.map (part.1, ·)) =
        (ordered catalog (written documents)).map
          fun (field, w) => (field, w.source, w.content) := by
    intro merged run
    rw [zip_merge differ run, ordered, List.flatMap_map, List.map_flatMap]
    simp only [List.map_map, Function.comp_def]
  have fields : ∀ merged, merge catalog documents = .ok merged →
      ((∀ part ∈ catalog.fields.zip merged, ∃ element, part.1.type.ListsEntities element) ↔
        ∀ field ∈ catalog.fields, ∃ element, field.type.ListsEntities element) := by
    intro merged run
    rw [zip_merge differ run, List.forall_mem_map]
  unfold load
  constructor
  · intro run
    obtain ⟨_, found, run⟩ := bind_eq_ok_iff.mp run
    rw [catalogFound] at found
    cases found
    obtain ⟨merged, merging, run⟩ := bind_eq_ok_iff.mp run
    obtain ⟨instances, registered, last⟩ := bind_eq_ok_iff.mp run
    obtain ⟨lists, all⟩ := foldlM_registerField_eq_ok_iff.mp registered
    rw [entrywise merged merging] at all
    exact ⟨(merge_ok merging).1, (fields merged merging).mp lists, instances, all,
      (Except.ok.inj last).symm⟩
  · rintro ⟨fits, lists, instances, all, rfl⟩
    obtain ⟨merged, merging⟩ := exists_merge_eq_ok fits
    rw [← entrywise merged merging] at all
    have registered := foldlM_registerField_eq_ok_iff.mpr
      ⟨(fields merged merging).mpr lists, all⟩
    refine bind_eq_ok_iff.mpr ⟨catalog, catalogFound, ?_⟩
    exact bind_eq_ok_iff.mpr ⟨merged, merging, bind_eq_ok_iff.mpr ⟨instances, registered, rfl⟩⟩

/-- Documents that fit write entries for fields of the catalog only. -/
theorem key_mem_of_fits (fits : ∀ document ∈ documents, document.Fits catalog) :
    ∀ w ∈ written documents, w.key ∈ catalog.fields.map Field.name := by
  intro w mem
  obtain ⟨document, listed, mem⟩ := List.mem_flatMap.mp mem
  obtain ⟨members, object, lists⟩ := fits document listed
  rw [object] at mem
  obtain ⟨⟨key, content⟩, member, mem⟩ := List.mem_flatMap.mp mem
  obtain ⟨_, _, rfl⟩ := List.mem_map.mp mem
  obtain ⟨⟨field, found⟩, _⟩ := lists key content member
  exact Registry.findField?_isSome_iff.mp (Option.isSome_iff_exists.mpr ⟨field, found⟩)

theorem catalog_differ (reachable : schema.Reachable) (hasCatalog : schema.catalog? = some catalog) :
    (catalog.fields.map Field.name).Nodup := by
  obtain ⟨id, _, declared⟩ := Option.bind_eq_some_iff.mp hasCatalog
  exact reachable.fieldsDiffer id catalog declared

theorem takes_empty (schema : Registry) : Takes schema [] {} :=
  ⟨InstanceRegistry.keeps_empty, rfl⟩

/-- Documents are loaded as their entries. -/
theorem loadable_of_load (reachable : schema.Reachable) (hasCatalog : schema.catalog? = some catalog)
    (run : load schema documents = .ok r) : ∃ accepted instances,
      Loadable schema catalog documents accepted ∧ Takes schema accepted instances ∧
        r = instances.close := by
  obtain ⟨fits, lists, instances, all, rfl⟩ :=
    (load_eq_ok_iff hasCatalog (catalog_differ reachable hasCatalog)).mp run
  obtain ⟨news, converts, taken⟩ := (takes_empty schema).registerAll all
  exact ⟨news, instances, ⟨fits, lists, converts, taken.noCatalog, taken.nodup⟩, taken, rfl⟩

/-- All entries of documents that fit are registered, and no more than them. -/
theorem Loadable.length_eq (loadable : Loadable schema catalog documents accepted)
    (differ : (catalog.fields.map Field.name).Nodup) :
    accepted.length = (written documents).length := by
  rw [← loadable.converts.length_eq, ← List.length_map Prod.snd]
  exact (ordered_perm differ (key_mem_of_fits loadable.fits)).length_eq

/-- **Loading loses, repeats and reorders nothing.** Documents with fewer entries than a word of 32
bits counts are loaded if and only if they fit the catalog and their entries convert to records with
different ids. The registry then is sealed, and it contains all entries, each once, in the order of
the catalog. -/
theorem load_exact (reachable : schema.Reachable) (hasCatalog : schema.catalog? = some catalog)
    (few : (written documents).length < InstanceRegistry.capacity) :
    ((∃ r, load schema documents = .ok r) ↔
        ∃ accepted, Loadable schema catalog documents accepted) ∧
      ∀ r, load schema documents = .ok r → ∃ accepted,
        Loadable schema catalog documents accepted ∧
        ((ordered catalog (written documents)).map Prod.snd).Perm (written documents) ∧
        r.isSealed = true ∧ r.Agrees schema accepted ∧
        ∀ type, (r.instancesOf type).map (fun i => (i.id, i.record)) =
          accepted.filter (·.2.type == type) := by
  have differ := catalog_differ reachable hasCatalog
  refine ⟨⟨?_, ?_⟩, ?_⟩
  · rintro ⟨r, run⟩
    obtain ⟨accepted, _, loadable, _⟩ := loadable_of_load reachable hasCatalog run
    exact ⟨accepted, loadable⟩
  · rintro ⟨accepted, loadable⟩
    obtain ⟨instances, all⟩ := (takes_empty schema).exists_registerAll catalog
      reachable.consistent loadable.converts loadable.noCatalog loadable.distinct
      (by rw [loadable.length_eq differ, List.length_nil]; omega)
    exact ⟨_, (load_eq_ok_iff hasCatalog differ).mpr
      ⟨loadable.fits, loadable.lists, instances, all, rfl⟩⟩
  · intro r run
    obtain ⟨accepted, instances, loadable, taken, rfl⟩ :=
      loadable_of_load reachable hasCatalog run
    have keeps := taken.keeps.close
    refine ⟨accepted, loadable, ordered_perm differ (key_mem_of_fits loadable.fits), rfl,
      keeps.agrees (loadable.length_eq differ ▸ few), keeps.map_instancesOf⟩

/-- Coins and gems, and a catalog that lists coins on their own and both as rewards. -/
def rewards : Registry := Registry.run [
  .declare {
    name := "RewardData"
    annotations := { isAbstract := true }
    fields := [{ name := "id", type := .scalar .string }] },
  .declare {
    name := "CoinData"
    parent := some ⟨0⟩
    annotations := { tokenized := true }
    fields := [
      { name := "type", type := .scalar .string, presence := .constant (.string "coin") }] },
  .declare {
    name := "GemData"
    parent := some ⟨0⟩
    annotations := { tokenized := true }
    fields := [
      { name := "type", type := .scalar .string, presence := .constant (.string "gem") }] },
  .declare {
    name := "GameCatalog"
    root := some .catalog
    fields := [
      { name := "coins", type := .list (.embedded ⟨1⟩) },
      { name := "rewards", type := .optional (.list (.embedded ⟨0⟩)) }] }]

/-- An entry of a type with an id. -/
def reward (type id : String) : Json := .object [("id", .string id), ("type", .string type)]

/-- The coin that is listed on its own is written last and comes first. -/
def rewardFiles : List Document := [
  { source := "a.json"
    content := .object [("rewards", .array [reward "gem" "ruby", reward "coin" "silver"])] },
  { source := "b.json"
    content := .object [
      ("coins", .array [reward "coin" "gold"]), ("rewards", .array [reward "gem" "opal"])] }]

theorem load_exact_rewards : ∃ r, load rewards rewardFiles = .ok r ∧ r.isSealed = true ∧
    r.fungible = [⟨⟨1⟩, 0⟩, ⟨⟨2⟩, 0⟩, ⟨⟨1⟩, 1⟩, ⟨⟨2⟩, 1⟩] ∧ (r.tokenId? ⟨⟨1⟩, 1⟩) = some 2 := by
  have computed : (load rewards rewardFiles).map InstanceRegistry.fungible =
      .ok [⟨⟨1⟩, 0⟩, ⟨⟨2⟩, 0⟩, ⟨⟨1⟩, 1⟩, ⟨⟨2⟩, 1⟩] := by decide +kernel
  obtain ⟨catalog, hasCatalog⟩ : ∃ catalog, rewards.catalog? = some catalog :=
    Option.isSome_iff_exists.mp (by decide +kernel)
  cases run : load rewards rewardFiles with
  | error e =>
      rw [run] at computed
      cases computed
  | ok r =>
      rw [run] at computed
      have fungible := Except.ok.inj computed
      obtain ⟨accepted, _, _, closed, agrees, _⟩ :=
        (load_exact ⟨_, rfl⟩ hasCatalog (by decide)).2 r run
      exact ⟨r, rfl, closed, fungible, (agrees.tokenId?_iff _ _).mpr (by rw [fungible]; rfl)⟩

end EntityForge.Loading
