import EntityForge.Proofs.Schema.Fields

/-!
Inheritance along the chain of parents.

A declared type answers from what its declaration was flattened to when it was declared. `Lineage`
is the chain that the flattening stands for: from the type to its parent, to that one's parent, and
on to a type without one. `Flattened` is the step of the induction along it: each declared type is
its declaration flattened onto its parent as the registry still has it. From there ancestors, kind
and effective fields are those that a walk along the chain finds (`Reachable.inherits_lineage`).
-/

namespace EntityForge

/-- Inherited fields in their order, each in the version redeclared below it if there is one, and
then the fields that are new, as they are declared. -/
def overlay (inherited declared : List Field) : List Field :=
  inherited.map (fun field => (findField? declared field.name).getD field) ++
    declared.filter fun field => (findField? inherited field.name).isNone

/-- The kind of the nearest root along a chain of types. -/
def nearestKind (chain : List EntityType) : EntityKind :=
  ((chain.findSome? fun entity => entity.declaration.root).map RootKind.kind).getD .struct

/-- The nearest declaration of a field along a chain of types. -/
def nearestField? (chain : List EntityType) (name : String) : Option Field :=
  chain.findSome? fun entity => findField? entity.declaration.fields name

theorem nearestKind_cons (entity : EntityType) (chain : List EntityType) :
    nearestKind (entity :: chain) =
      (entity.declaration.root.map RootKind.kind).getD (nearestKind chain) := by
  rw [nearestKind, List.findSome?_cons]
  cases entity.declaration.root <;> rfl

theorem nearestField?_cons (entity : EntityType) (chain : List EntityType) (name : String) :
    nearestField? (entity :: chain) name =
      (findField? entity.declaration.fields name).or (nearestField? chain name) := by
  rw [nearestField?, List.findSome?_cons]
  cases findField? entity.declaration.fields name <;> rfl

/-! ### Adding declared fields to inherited ones -/

section Fields

variable {field : Field} {fields declared inherited : List Field} {name : String}

@[simp] theorem findField?_nil : findField? [] name = none := rfl

theorem findField?_cons :
    findField? (field :: fields) name = if field.name = name then some field
      else findField? fields name := by
  by_cases same : field.name = name
  · simp [findField?, same]
  · simp [findField?, same]

theorem findField?_append :
    findField? (fields ++ declared) name = (findField? fields name).or (findField? declared name) :=
  List.find?_append

theorem findField?_eq_none_iff : findField? fields name = none ↔ name ∉ fields.map Field.name := by
  rw [← Option.not_isSome_iff_eq_none, Registry.findField?_isSome_iff]

/-- Replacing the fields of a name shows under that name only. -/
theorem findField?_map_replace :
    findField? (fields.map fun f => if f.name = field.name then field else f) name =
      if field.name = name then (findField? fields name).map fun _ => field
      else findField? fields name := by
  induction fields with
  | nil => simp
  | cons f rest ih =>
      rw [List.map_cons, findField?_cons, findField?_cons, ih]
      by_cases replaced : f.name = field.name
      · rw [if_pos replaced, replaced]
        split <;> rfl
      · rw [if_neg replaced]
        by_cases here : f.name = name
        · rw [if_pos here, if_neg (here ▸ Ne.symm replaced), if_pos here]
        · rw [if_neg here, if_neg here]

theorem findField?_addField :
    findField? (Registry.addField fields field) name =
      if field.name = name then some field else findField? fields name := by
  unfold Registry.addField
  split
  · rename_i present
    obtain ⟨old, found⟩ := Option.isSome_iff_exists.mp present
    rw [findField?_map_replace]
    split
    · rename_i same
      rw [← same, found]
      rfl
    · rfl
  · rename_i absent
    rw [findField?_append, findField?_cons, findField?_nil]
    split
    · rename_i same
      rw [← same, Option.not_isSome_iff_eq_none.mp absent]
      rfl
    · exact Option.or_none

/-- A declared field hides the inherited one of its name. -/
theorem findField?_foldl_addField (nodup : (declared.map Field.name).Nodup) :
    findField? (declared.foldl Registry.addField inherited) name =
      (findField? declared name).or (findField? inherited name) := by
  induction declared generalizing inherited with
  | nil => rfl
  | cons field rest ih =>
      obtain ⟨new, nodup⟩ := List.nodup_cons.mp nodup
      rw [List.foldl_cons, ih nodup, findField?_addField, findField?_cons]
      split
      · rename_i same
        rw [findField?_eq_none_iff.mpr (same ▸ new)]
        rfl
      · rfl

/-- A redeclared field takes the place of the inherited one of its name. -/
theorem overlay_cons_of_inherited (present : (findField? inherited field.name).isSome = true)
    (alone : findField? declared field.name = none) :
    overlay inherited (field :: declared) =
      overlay (Registry.addField inherited field) declared := by
  have here : ¬ (findField? inherited field.name).isNone = true := by
    simp [Option.isSome_iff_ne_none.mp present]
  unfold overlay Registry.addField
  rw [if_pos present, List.map_map, List.filter_cons, if_neg here]
  congr 1
  · refine List.map_congr_left fun f _ => ?_
    rw [Function.comp_apply, findField?_cons]
    by_cases same : f.name = field.name
    · rw [if_pos same, if_pos same.symm, alone]
      rfl
    · rw [if_neg same, if_neg (Ne.symm same)]
  · refine List.filter_congr fun f _ => ?_
    rw [findField?_map_replace]
    split <;> simp

/-- A new field follows the inherited ones. -/
theorem overlay_cons_of_new (absent : findField? inherited field.name = none)
    (alone : findField? declared field.name = none) :
    overlay inherited (field :: declared) =
      overlay (Registry.addField inherited field) declared := by
  unfold overlay Registry.addField
  rw [if_neg (by simp [absent]), List.map_append, List.filter_cons, if_pos (by simp [absent]),
    List.map_singleton, alone, Option.getD_none, List.append_assoc, List.singleton_append]
  congr 1
  · refine List.map_congr_left fun f mem => ?_
    have other : field.name ≠ f.name := fun same =>
      findField?_eq_none_iff.mp absent (same ▸ List.mem_map_of_mem mem)
    rw [findField?_cons, if_neg other]
  · congr 1
    refine List.filter_congr fun f mem => ?_
    have other : field.name ≠ f.name := fun same =>
      findField?_eq_none_iff.mp alone (same ▸ List.mem_map_of_mem mem)
    rw [findField?_append, findField?_cons, if_neg other, findField?_nil, Option.or_none]

/-- The declared fields take the places of the inherited ones of their names, or follow them. -/
theorem foldl_addField_eq_overlay (nodup : (declared.map Field.name).Nodup) :
    declared.foldl Registry.addField inherited = overlay inherited declared := by
  induction declared generalizing inherited with
  | nil => simp [overlay]
  | cons field rest ih =>
      obtain ⟨new, nodup⟩ := List.nodup_cons.mp nodup
      have alone : findField? rest field.name = none := findField?_eq_none_iff.mpr new
      rw [List.foldl_cons, ih nodup]
      cases inheritedField : findField? inherited field.name with
      | some old => exact (overlay_cons_of_inherited (by simp [inheritedField]) alone).symm
      | none => exact (overlay_cons_of_new inheritedField alone).symm

end Fields

namespace Registry

variable {r r' : Registry} {id : EntityId} {entity : EntityType} {chain : List EntityType}

theorem nodup_of_checkFields {owner : String} {seen : List String} {fields : List Field}
    (passed : r.checkFields owner seen fields = .ok ()) :
    (fields.map Field.name).Nodup ∧ ∀ name ∈ fields.map Field.name, name ∉ seen := by
  induction fields generalizing seen with
  | nil => exact ⟨List.nodup_nil, fun _ mem => (List.not_mem_nil mem).elim⟩
  | cons field rest ih =>
      rw [checkFields] at passed
      split at passed
      · cases passed
      · rename_i unseen
        obtain ⟨_, _, passed⟩ := bind_eq_ok_iff.mp passed
        obtain ⟨nodup, fresh⟩ := ih passed
        refine ⟨List.nodup_cons.mpr ⟨fun mem => ?_, nodup⟩, List.forall_mem_cons.mpr ⟨unseen, ?_⟩⟩
        · exact fresh field.name mem List.mem_cons_self
        · exact fun name mem seen => fresh name mem (List.mem_cons_of_mem _ seen)

/-! ### Declared types are flattened -/

/-- A declared type is its declaration flattened onto its parent, and it declares no field twice. -/
structure Flat (r : Registry) (id : EntityId) (entity : EntityType) : Prop where
  flattened : ∃ parent, r.parentOf entity.declaration = .ok parent ∧
    entity = flatten id entity.declaration parent
  nodup : (entity.declaration.fields.map Field.name).Nodup

theorem Flat.extend (flat : r.Flat id entity) (ext : r.Extends r') : r'.Flat id entity := by
  obtain ⟨parent, found, same⟩ := flat.flattened
  refine ⟨⟨parent, parentOf_eq_ok_iff.mpr ?_, same⟩, flat.nodup⟩
  rcases parentOf_eq_ok_iff.mp found with root | ⟨above, p, child, at_, rfl⟩
  · exact .inl root
  · exact .inr ⟨above, p, child, ext.entity? above p at_, rfl⟩

theorem Admits.flat {declaration : Declaration} (admits : r.Admits declaration entity) :
    r.Flat entity.id entity := by
  obtain ⟨parent, found, same⟩ := admits.flattened
  rw [← admits.declaration_eq] at found same
  refine ⟨⟨parent, found, same⟩, ?_⟩
  rw [admits.declaration_eq]
  exact (nodup_of_checkFields admits.fields).1

/-- Every declared type is its declaration flattened. -/
def Flattened (r : Registry) : Prop := ∀ id entity, r.entity? id = some entity → r.Flat id entity

/-- Later calls leave the parents as they were, so what was flattened onto them stays so. -/
theorem Reachable.flattened (reachable : r.Reachable) : r.Flattened := by
  refine (reachable.induction (motive := fun r => r.Consistent ∧ r.Flattened)
    ⟨consistent_empty, ?_⟩ ?_ ?_).2
  · intro id entity found
    simp [Registry.entity?, slot?] at found
  · rintro r name id ⟨consistent, flattened⟩ unknown next
    refine ⟨consistent.append unknown next, fun j entity found => ?_⟩
    rw [entity?_append] at found
    exact (flattened j entity found).extend (.append unknown)
  · rintro r declaration entity ⟨consistent, flattened⟩ admits
    have ext := Extends.install admits consistent.names
    refine ⟨consistent.install admits, fun j e found => ?_⟩
    rw [entity?_install (admits.free consistent.names).bound] at found
    split at found
    · rename_i same
      cases found
      rw [same]
      exact admits.flat.extend ext
    · exact (flattened j e found).extend ext

/-! ### Types below a type -/

/-- `actual` is the type `declared` or one below it. -/
def IsOrDescends (schema : Registry) (actual declared : EntityId) : Prop :=
  ∃ entity, schema.entity? actual = some entity ∧
    (actual = declared ∨ entity.descendsFrom declared = true)

/-- What a type is or descends from is declared. -/
theorem Consistent.declared_of_isOrDescends (consistent : r.Consistent) {actual declared : EntityId}
    (below : r.IsOrDescends actual declared) : ∃ entity, r.entity? declared = some entity := by
  obtain ⟨entity, found, rfl | descends⟩ := below
  · exact ⟨entity, found⟩
  · exact (consistent.fits actual entity found).ancestors_declared declared
      (List.contains_iff_mem.mp descends)

/-- The types themselves are compared as their identities are. -/
theorem Consistent.isOrDescends_iff (consistent : r.Consistent) {actual declared : EntityId}
    {above : EntityType} (found : r.entity? actual = some entity)
    (foundAbove : r.entity? declared = some above) : r.IsOrDescends actual declared ↔
      ¬ (entity.id ≠ above.id ∧ (!entity.descendsFrom above.id) = true) := by
  rw [(consistent.fits _ _ found).id_eq, (consistent.fits _ _ foundAbove).id_eq, IsOrDescends,
    found]
  simp [or_iff_not_imp_left]

/-! ### The chain of parents -/

/-- The types above a type: its parent, the parent of that one, and so on to one without. -/
inductive Lineage (r : Registry) : EntityType → List EntityType → Prop where
  | root {entity : EntityType} : entity.declaration.parent = none → Lineage r entity []
  | child {entity parent : EntityType} {id : EntityId} {chain : List EntityType} :
      entity.declaration.parent = some id → r.entity? id = some parent →
      Lineage r parent chain → Lineage r entity (parent :: chain)

theorem Lineage.unique {other : List EntityType} (lineage : r.Lineage entity chain)
    (second : r.Lineage entity other) : other = chain := by
  induction lineage generalizing other with
  | root top =>
      cases second with
      | root _ => rfl
      | child child _ _ =>
          rw [top] at child
          cases child
  | child child at_ _ ih =>
      cases second with
      | root top =>
          rw [top] at child
          cases child
      | child child' at' above =>
          rw [child'] at child
          cases child
          rw [at'] at at_
          cases at_
          rw [ih above]

/-- What a type inherits along the chain of its parents, with every part as a walk along the chain
finds it. -/
structure Inherits (r : Registry) (entity : EntityType) (chain : List EntityType) : Prop where
  declared : ∀ above ∈ chain, r.entity? above.id = some above
  ancestors : entity.ancestors = chain.map EntityType.id
  kind : entity.kind = nearestKind (entity :: chain)
  field? : ∀ name, entity.field? name = nearestField? (entity :: chain) name
  nodup : (entity.fields.map Field.name).Nodup
  fields : entity.fields =
    overlay ((chain.head?.map EntityType.fields).getD []) entity.declaration.fields

theorem kind_flatten {declaration : Declaration} {parent : Option EntityType} :
    (flatten id declaration parent).kind =
      (declaration.root.map RootKind.kind).getD ((parent.map EntityType.kind).getD .struct) := by
  unfold flatten
  cases declaration.root <;> rfl

theorem Inherits.nil (same : entity = flatten id entity.declaration none)
    (nodup : (entity.declaration.fields.map Field.name).Nodup) : r.Inherits entity [] where
  declared _ mem := (List.not_mem_nil mem).elim
  ancestors := by
    rw [same]
    rfl
  kind := by
    rw [nearestKind_cons, same]
    exact kind_flatten
  field? name := by
    rw [nearestField?_cons, same]
    exact findField?_foldl_addField nodup
  nodup := by
    rw [same]
    exact nodup_names_foldl_addField List.nodup_nil
  fields := by
    rw [same]
    exact foldl_addField_eq_overlay nodup

/-- What a parent inherits, a type below it inherits from there. -/
theorem Inherits.cons {parent : EntityType} (above : r.Inherits parent chain)
    (at_ : r.entity? parent.id = some parent)
    (same : entity = flatten id entity.declaration (some parent))
    (nodup : (entity.declaration.fields.map Field.name).Nodup) :
    r.Inherits entity (parent :: chain) where
  declared := List.forall_mem_cons.mpr ⟨at_, above.declared⟩
  ancestors := by
    rw [same, List.map_cons, ← above.ancestors]
    rfl
  kind := by
    rw [nearestKind_cons, ← above.kind, same]
    exact kind_flatten
  field? name := by
    rw [nearestField?_cons, ← above.field?, same]
    exact findField?_foldl_addField nodup
  nodup := by
    rw [same]
    exact nodup_names_foldl_addField above.nodup
  fields := by
    rw [same]
    exact foldl_addField_eq_overlay nodup

theorem Flat.id_eq (flat : r.Flat id entity) : entity.id = id := by
  obtain ⟨parent, _, same⟩ := flat.flattened
  rw [same]
  rfl

/-- Where all declared types are flattened, each inherits along its lineage. -/
theorem Flattened.inherits_of_lineage (flattened : r.Flattened) (lineage : r.Lineage entity chain)
    (found : r.entity? id = some entity) : r.Inherits entity chain := by
  induction lineage generalizing id with
  | root top =>
      obtain ⟨⟨parent, parents, same⟩, nodup⟩ := flattened id _ found
      rcases parentOf_eq_ok_iff.mp parents with ⟨_, rfl⟩ | ⟨_, _, child, _⟩
      · exact .nil same nodup
      · rw [top] at child
        cases child
  | child child at_ _ ih =>
      obtain ⟨⟨parent, parents, same⟩, nodup⟩ := flattened id _ found
      rcases parentOf_eq_ok_iff.mp parents with ⟨top, _⟩ | ⟨_, p, child', at', rfl⟩
      · rw [top] at child
        cases child
      · rw [child] at child'
        cases child'
        rw [at_] at at'
        cases at'
        refine (ih at_).cons ?_ same nodup
        rw [(flattened _ _ at_).id_eq]
        exact at_

/-- The chain of parents ends: the ancestors that were flattened into a type become fewer along
it. -/
theorem Flattened.exists_lineage (flattened : r.Flattened) (found : r.entity? id = some entity) :
    ∃ chain, r.Lineage entity chain := by
  induction fewer : entity.ancestors generalizing id entity with
  | nil =>
      obtain ⟨⟨parent, parents, same⟩, _⟩ := flattened id entity found
      rcases parentOf_eq_ok_iff.mp parents with ⟨top, _⟩ | ⟨_, p, _, _, rfl⟩
      · exact ⟨[], .root top⟩
      · rw [same] at fewer
        cases fewer
  | cons nearest older ih =>
      obtain ⟨⟨parent, parents, same⟩, _⟩ := flattened id entity found
      rcases parentOf_eq_ok_iff.mp parents with ⟨_, rfl⟩ | ⟨_, p, child, at_, rfl⟩
      · rw [same] at fewer
        cases fewer
      · rw [same] at fewer
        obtain ⟨chain, above⟩ := ih at_ (List.cons.inj fewer).2
        exact ⟨p :: chain, .child child at_ above⟩

/-- **Flattened inheritance is the walk along the chain of parents.** In every reachable registry a
declared type has one lineage, and its ancestors, its kind and its effective fields are those that
the lineage gives it. -/
theorem Reachable.inherits_lineage (reachable : r.Reachable) (found : r.entity? id = some entity) :
    ∃ chain, r.Lineage entity chain ∧ (∀ other, r.Lineage entity other → other = chain) ∧
      r.Inherits entity chain := by
  obtain ⟨chain, lineage⟩ := reachable.flattened.exists_lineage found
  exact ⟨chain, lineage, fun _ second => lineage.unique second,
    reachable.flattened.inherits_of_lineage lineage found⟩

/-- A base of data with two fields, a type below it that redeclares the first one, and one further
below that redeclares it again beside a field of its own. -/
def banners : List Call := [
  .declare {
    name := "Data"
    fields := [
      { name := "label", type := .scalar .string },
      { name := "rank", type := .scalar .int }]
    root := some .dataCatalog },
  .reserve "Reward",
  .declare {
    name := "Banner"
    parent := some ⟨0⟩
    fields := [{ name := "label", type := .optional (.scalar .string) }] },
  .declare {
    name := "Pennant"
    parent := some ⟨2⟩
    fields := [
      { name := "length", type := .scalar .int },
      { name := "label", type := .scalar .int }] }]

theorem inherits_pennant : ∃ entity chain, (run banners).entity? ⟨3⟩ = some entity ∧
    entity.kind = .data ∧ entity.fields.map Field.name = ["label", "rank", "length"] ∧
    (run banners).Lineage entity chain ∧ (run banners).Inherits entity chain := by
  have known : ((run banners).entity? ⟨3⟩).map (fun e => (e.kind, e.fields.map Field.name)) =
      some (.data, ["label", "rank", "length"]) := by decide +kernel
  obtain ⟨entity, found, parts⟩ := Option.map_eq_some_iff.mp known
  obtain ⟨kind, names⟩ := Prod.mk.inj parts
  obtain ⟨chain, lineage, _, inherits⟩ := Reachable.inherits_lineage ⟨banners, rfl⟩ found
  exact ⟨entity, chain, found, kind, names, lineage, inherits⟩

end Registry

end EntityForge
