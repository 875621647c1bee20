import EntityForge.Proofs.Instances.Contents
import EntityForge.Proofs.Instances.Places

/-!
Resolved references name instances that exist. A reference names a type by its tag and an instance
by its id; the tags of a consistent schema tell the types apart, so the type that is found is the
one that the field declares (`resolveTyped_named`), and what a visit finds is found at one of its
places (`visit_named`).
-/

namespace EntityForge

/-- The instance that a resolved reference names, by its place and by its id. -/
def ResolvedReference.Names (f : ResolvedReference) (instances : InstanceRegistry) : Prop :=
  ∃ i, (instances.instancesOf f.target)[f.ordinal]? = some i ∧ i.id = f.id

namespace Resolution

open InstanceRegistry

variable {schema : Registry} {instances : InstanceRegistry} {accepted : List (String × Record)}

/-- A key is found by the type of the tag and the ordinal of the id. -/
theorem resolve_eq_ok {r : Reference} {key : InstanceKey}
    (found : resolve schema instances r = .ok key) :
    schema.byTag? r.tag = some key.type ∧
      instances.ordinalOf? key.type r.id = some key.ordinal := by
  unfold resolve at found
  split at found
  · cases found
  · split at found
    · cases found
    · rename_i type tagged
      split at found
      · cases found
      · rename_i ordinal here
        cases found
        exact ⟨tagged, here⟩

/-- A reference that fits the declared type of its field names one of its instances. -/
theorem resolveTyped_named (consistent : schema.Consistent)
    (keeps : instances.Keeps schema accepted) {r : Reference} {target : EntityId} {ordinal : Nat}
    (found : resolveTyped schema instances r target = .ok ordinal) :
    ∃ i, (instances.instancesOf target)[ordinal]? = some i ∧ i.id = r.id := by
  obtain ⟨entity, declared, found⟩ := bind_eq_ok_iff.mp found
  split at found
  · cases found
  · rename_i sameTag
    obtain ⟨key, resolved, last⟩ := bind_eq_ok_iff.mp found
    obtain rfl : key.ordinal = ordinal := Except.ok.inj last
    obtain ⟨tagged, here⟩ := resolve_eq_ok resolved
    have held : schema.tagAt target = some r.tag := by
      rw [Registry.tagAt, Registry.get_eq_ok_iff.mp declared, not_not.mp sameTag]
      rfl
    have sameType : key.type = target := by
      rw [(consistent.tags r.tag target).mpr held] at tagged
      exact (Option.some.inj tagged).symm
    rw [sameType] at here
    obtain ⟨i, kept, type, id, place⟩ := (keeps.ordinalOf?_iff target r.id key.ordinal).mp here
    refine ⟨i, ?_, id⟩
    rw [keeps.instancesOf_eq]
    exact getElem?_filter_numbered.mpr ⟨kept, type, place⟩

/-! ### References below a value -/

/-- A search that succeeds finds only references that name instances. -/
def FindsNamed (instances : InstanceRegistry) (search : Except Error (List ResolvedReference)) :
    Prop :=
  ∀ found, search = .ok found → ∀ f ∈ found, f.Names instances

/-- **All references that a visit finds name instances that exist.** -/
theorem visit_named (consistent : schema.Consistent) (keeps : instances.Keeps schema accepted)
    (p : Place) : FindsNamed instances (p.visit schema instances) := by
  induction p using Place.induction schema with
  | step p ih =>
      intro found run f mem
      obtain ⟨here, below, tested, each, rfl⟩ := Place.visit_eq_ok_iff.mp run
      rcases List.mem_append.mp mem with own | inside
      · rcases Place.own_ok tested with ⟨rfl, _⟩ | ⟨target, r, ordinal, _, _, resolved, rfl⟩
        · cases own
        · rw [List.mem_singleton.mp own]
          exact resolveTyped_named consistent keeps resolved
      · obtain ⟨part, member, inside⟩ := List.mem_flatten.mp inside
        obtain ⟨q, listed, visited⟩ := (exists_of_forall₂ each).2 part member
        exact ih q listed part visited f inside

/-- The references of an instance name instances that exist. -/
theorem validateInstance_named (consistent : schema.Consistent)
    (keeps : instances.Keeps schema accepted) (i : Instance) :
    FindsNamed instances (validateInstance schema instances i) := by
  intro found run
  obtain ⟨entity, _, run⟩ := bind_eq_ok_iff.mp run
  have visited := inContext_eq_ok_iff.mp run
  rw [recordReferences_eq] at visited
  exact visit_named consistent keeps (Place.ofInstance i) found visited

/-! ### Ordinals -/

section

variable {type : FieldType} {ordinals : List Nat}

/-- A visit of the value finds references to instances of the ordinals, in their order. -/
def Yields (schema : Registry) (instances : InstanceRegistry) (type : FieldType) (value : Value)
    (ordinals : List Nat) : Prop :=
  ∃ path found, references schema instances type value path = .ok found ∧
    ordinals = found.map ResolvedReference.ordinal

theorem yields_nil : Yields schema instances type .nil [] :=
  ⟨"", [], by rw [references], rfl⟩

theorem Yields.of_nil (yields : Yields schema instances type .nil ordinals) : ordinals = [] := by
  obtain ⟨path, found, run, rfl⟩ := yields
  rw [references] at run
  cases run
  rfl

theorem Yields.of_int {n : Int} (yields : Yields schema instances type (.int n) ordinals) :
    ordinals = [] := by
  obtain ⟨path, found, run, rfl⟩ := yields
  rw [references] at run
  split at run
  · cases run
    rfl
  · cases run

theorem Yields.of_string {text : String}
    (yields : Yields schema instances type (.string text) ordinals) : ordinals = [] := by
  obtain ⟨path, found, run, rfl⟩ := yields
  rw [references] at run
  split at run
  · cases run
    rfl
  · cases run

/-- A reference yields the ordinal of the instance that it names, whatever its type. -/
theorem Yields.of_ref {r : Reference} (yields : Yields schema instances type (.ref r) ordinals) :
    ∃ key, resolve schema instances r = .ok key ∧ ordinals = [key.ordinal] := by
  obtain ⟨path, found, run, rfl⟩ := yields
  rw [references] at run
  split at run
  · obtain ⟨ordinal, resolved, last⟩ := bind_eq_ok_iff.mp run
    cases last
    obtain ⟨entity, _, typed⟩ := bind_eq_ok_iff.mp (inContext_eq_ok_iff.mp resolved)
    split at typed
    · cases typed
    · obtain ⟨key, here, last⟩ := bind_eq_ok_iff.mp typed
      cases last
      exact ⟨key, here, rfl⟩
  · cases run

theorem yields_of_itemReferences {element : FieldType} {items : List Value} {path : String}
    {index : Nat} {found : List ResolvedReference}
    (run : itemReferences schema instances element items path index = .ok found) :
    ∃ each, List.Forall₂ (Yields schema instances element) items each ∧
      found.map ResolvedReference.ordinal = each.flatten := by
  induction items generalizing index found with
  | nil =>
      rw [itemReferences] at run
      cases run
      exact ⟨[], .nil, rfl⟩
  | cons item rest ih =>
      rw [itemReferences] at run
      obtain ⟨first, visited, run⟩ := bind_eq_ok_iff.mp run
      obtain ⟨others, follow, last⟩ := bind_eq_ok_iff.mp run
      cases last
      obtain ⟨each, yields, flat⟩ := ih follow
      refine ⟨first.map ResolvedReference.ordinal :: each, .cons ⟨_, first, visited, rfl⟩ yields, ?_⟩
      rw [List.map_append, flat, List.flatten_cons]

/-- A list yields what its items yield, one after the other. -/
theorem Yields.of_list {element : FieldType} {items : List Value}
    (fits : type.unwrap = .list element)
    (yields : Yields schema instances type (.list items) ordinals) :
    ∃ each, List.Forall₂ (Yields schema instances element) items each ∧
      ordinals = each.flatten := by
  obtain ⟨path, found, run, rfl⟩ := yields
  rw [references, fits] at run
  exact yields_of_itemReferences run

/-- What the fields of a record yield, one after the other. -/
theorem yields_of_fields (held : Field → Option Value) {fields : List Field}
    {search : Field → Except Error (List ResolvedReference)} {results : List (List ResolvedReference)}
    (unset : ∀ field, held field = none → search field = .ok [])
    (set : ∀ field v, held field = some v →
      ∃ path, search field = references schema instances field.type v path)
    (run : fields.mapM search = .ok results) :
    ∃ each, List.Forall₂ (fun field => Yields schema instances field.type ((held field).getD .nil))
        fields each ∧ results.flatten.map ResolvedReference.ordinal = each.flatten := by
  refine ⟨results.map (List.map ResolvedReference.ordinal), ?_, List.map_flatten ..⟩
  refine List.forall₂_map_right_iff.mpr ((mapM_eq_ok_iff.mp run).imp fun field found here => ?_)
  cases isHeld : held field with
  | none =>
      rw [unset field isHeld] at here
      cases here
      exact yields_nil
  | some v =>
      obtain ⟨path, same⟩ := set field v isHeld
      exact ⟨path, found, same.symm.trans here, rfl⟩

/-- A record yields what the fields of its own type yield, one after the other. -/
theorem Yields.of_record {target actual : EntityId} {entity : EntityType}
    {fields : List (String × Value)} (fits : type.unwrap = .embedded target)
    (declared : schema.entity? actual = some entity)
    (yields : Yields schema instances type (.record actual fields) ordinals) :
    schema.Declares target ∧ ∃ each, List.Forall₂ (fun field => Yields schema instances field.type
      ((SortedMap.find? compare field.name fields).getD .nil)) entity.fields each ∧
      ordinals = each.flatten := by
  obtain ⟨path, found, run, rfl⟩ := yields
  rw [references, fits] at run
  obtain ⟨expected, known, run⟩ := bind_eq_ok_iff.mp run
  obtain ⟨entity', got, run⟩ := bind_eq_ok_iff.mp run
  cases declared.symm.trans (Registry.get_eq_ok_iff.mp got)
  refine ⟨⟨expected, Registry.get_eq_ok_iff.mp known⟩, ?_⟩
  split at run
  · cases run
  · obtain ⟨results, visited, last⟩ := bind_eq_ok_iff.mp run
    cases last
    refine yields_of_fields (fun field => SortedMap.find? compare field.name fields)
      (fun field none => ?_) (fun field v some => ?_) visited
    · split
      · rfl
      · rename_i set
        rw [none] at set
        cases set
    · split
      · rename_i unset
        rw [some] at unset
        cases unset
      · rename_i set
        cases some.symm.trans set
        exact ⟨_, rfl⟩

/-- The references of an instance are those of its effective fields, one after the other. -/
theorem yields_of_validateInstance {i : Instance} {entity : EntityType}
    {found : List ResolvedReference} (declared : schema.entity? i.record.type = some entity)
    (run : validateInstance schema instances i = .ok found) :
    ∃ each, List.Forall₂ (fun field => Yields schema instances field.type
      ((i.record.get? field.name).getD .nil)) entity.fields each ∧
      found.map ResolvedReference.ordinal = each.flatten := by
  obtain ⟨_, _, run⟩ := bind_eq_ok_iff.mp run
  obtain ⟨entity', got, run⟩ := bind_eq_ok_iff.mp (inContext_eq_ok_iff.mp run)
  cases declared.symm.trans (Registry.get_eq_ok_iff.mp got)
  obtain ⟨results, visited, last⟩ := bind_eq_ok_iff.mp run
  cases last
  refine yields_of_fields (fun field => i.record.get? field.name)
    (fun field none => ?_) (fun field v some => ?_) visited
  · rw [none]
  · rw [some]
    exact ⟨_, rfl⟩

end

end Resolution

end EntityForge
