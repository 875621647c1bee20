import EntityForge.Proofs.Schema.Runs

/-!
What holds in every reachable registry: the three indices say exactly what the slots hold, and every
declared type fits the registry around it.

An index and the slots that it points at are two views of one table. `ExactIndex` says that they
agree, and `ExactIndex.update` that they still do after an entry is added to both; the names and the
tags are two instances of it. `Reachable.consistent` is the invariant over runs and
`Call.extends_of_ok` says that a successful call only adds to what is known.
-/

namespace EntityForge

/-- Field types whose targets are among the first `bound` types and whose map keys are scalars. -/
def FieldType.Within (bound : Nat) : FieldType → Prop
  | .scalar _ => True
  | .optional inner | .list inner => inner.Within bound
  | .map key value => key.isScalar = true ∧ value.Within bound
  | .reference target | .embedded target => target.index < bound

theorem FieldType.Within.mono {bound bound' : Nat} (le : bound ≤ bound') {type : FieldType}
    (within : type.Within bound) : type.Within bound' := by
  induction type with
  | scalar _ => trivial
  | optional inner ih => exact ih within
  | list inner ih => exact ih within
  | map key value _ ih => exact ⟨within.1, ih within.2⟩
  | reference target => exact Nat.lt_of_lt_of_le within le
  | embedded target => exact Nat.lt_of_lt_of_le within le

/-- An index finds a key exactly at the place that has it. -/
def ExactIndex {κ : Type} (find : κ → Option EntityId) (key : EntityId → Option κ) : Prop :=
  ∀ k id, find k = some id ↔ key id = some k

namespace ExactIndex

variable {κ : Type} {find find' : κ → Option EntityId} {key key' : EntityId → Option κ}

/-- A key has one place, and a place one key. -/
theorem key_unique (exact : ExactIndex find key) {j k : κ} {id : EntityId}
    (first : find j = some id) (second : find k = some id) : j = k := by
  rw [exact] at first second
  exact Option.some.inj (first.symm.trans second)

/-- Adding a key at a place, in the index and at the place itself, keeps the two in agreement if
neither says anything else about them. -/
theorem update [DecidableEq κ] (exact : ExactIndex find key) (k₀ : κ) (id₀ : EntityId)
    (unfound : ∀ id, find k₀ = some id → id = id₀) (unheld : ∀ k, key id₀ = some k → k = k₀)
    (found : ∀ k, find' k = if k = k₀ then some id₀ else find k)
    (held : ∀ id, key' id = if id = id₀ then some k₀ else key id) : ExactIndex find' key' := by
  intro k id
  rw [found, held]
  by_cases sameKey : k = k₀
  · by_cases sameId : id = id₀
    · simp [sameKey, sameId]
    · rw [if_pos sameKey, if_neg sameId, ← exact k id]
      constructor
      · intro h
        exact absurd (Option.some.inj h).symm sameId
      · intro h
        exact absurd (unfound id (sameKey ▸ h)) sameId
  · by_cases sameId : id = id₀
    · rw [if_neg sameKey, if_pos sameId, exact k id]
      constructor
      · intro h
        exact absurd (unheld k (sameId ▸ h)) sameKey
      · intro h
        exact absurd (Option.some.inj h).symm sameKey
    · rw [if_neg sameKey, if_neg sameId, exact k id]

end ExactIndex

namespace Registry

variable {r r' : Registry}

/-- The name at a place. -/
def nameAt (r : Registry) (id : EntityId) : Option String := (r.slot? id).map Slot.name

/-- The tag of the declared type at a place. -/
def tagAt (r : Registry) (id : EntityId) : Option String := (r.entity? id).map EntityType.tag

/-! ### Views of the two changes -/

theorem slot?_eq_none_iff {id : EntityId} : r.slot? id = none ↔ r.size ≤ id.index :=
  List.getElem?_eq_none_iff

theorem slot?_of_entity? {id : EntityId} {entity : EntityType} (found : r.entity? id = some entity) :
    r.slot? id = some (.declared entity) := by
  obtain ⟨slot, at_, declared⟩ := Option.bind_eq_some_iff.mp found
  cases slot with
  | reserved name => cases declared
  | declared entity' =>
      cases declared
      exact at_

theorem nameOf_of_entity? {id : EntityId} {entity : EntityType}
    (declared : r.entity? id = some entity) : r.nameOf id = entity.name := by
  rw [nameOf, slot?_of_entity? declared]
  rfl

theorem index_lt_of_entity? {id : EntityId} {entity : EntityType}
    (found : r.entity? id = some entity) : id.index < r.size := by
  by_contra outside
  have none := slot?_eq_none_iff.mpr (Nat.le_of_not_lt outside)
  rw [slot?_of_entity? found] at none
  cases none

theorem slot?_append (name : String) (id j : EntityId) :
    (r.append name id).slot? j = if j = ⟨r.size⟩ then some (.reserved name) else r.slot? j := by
  obtain ⟨j⟩ := j
  simp only [slot?, append, size, EntityId.mk.injEq]
  grind

theorem size_append (name : String) (id : EntityId) : (r.append name id).size = r.size + 1 := by
  simp [append, size]

theorem entity?_append (name : String) (id j : EntityId) :
    (r.append name id).entity? j = r.entity? j := by
  unfold entity?
  rw [slot?_append]
  split
  · rename_i last
    have outside : r.slot? j = none := slot?_eq_none_iff.mpr (last ▸ Nat.le_refl r.size)
    rw [outside]
    rfl
  · rfl

theorem idOf?_append (name other : String) (id : EntityId) :
    (r.append name id).idOf? other = if other = name then some id else r.idOf? other :=
  SortedMap.find?_insert name other id r.byName

/-- What an installation leaves in each part of the registry. -/
theorem install_eq (entity : EntityType) :
    r.install entity = {
      slots :=
        if entity.id.index < r.size then r.slots.set entity.id.index (.declared entity)
        else r.slots ++ [.declared entity]
      byName := SortedMap.insert compare entity.name entity.id r.byName
      byTag := SortedMap.insert compare entity.tag entity.id r.byTag
      catalog := if entity.declaration.root = some .catalog then some entity.id else r.catalog } := by
  by_cases known : entity.id.index < r.slots.length
  · simp [install, place, index, size, known]
  · simp [install, place, index, size, known]

theorem slot?_install {entity : EntityType} (bound : entity.id.index ≤ r.size) (j : EntityId) :
    (r.install entity).slot? j =
      if j = entity.id then some (.declared entity) else r.slot? j := by
  obtain ⟨j⟩ := j
  simp only [slot?, install_eq, EntityId.ext_iff, size] at bound ⊢
  grind

theorem size_install (entity : EntityType) :
    (r.install entity).size = if entity.id.index < r.size then r.size else r.size + 1 := by
  rw [install_eq]
  unfold size
  dsimp only
  split <;> simp

theorem size_le_install (entity : EntityType) : r.size ≤ (r.install entity).size := by
  rw [size_install]
  split
  · exact Nat.le_refl r.size
  · exact Nat.le_succ r.size

theorem entity?_install {entity : EntityType} (bound : entity.id.index ≤ r.size) (j : EntityId) :
    (r.install entity).entity? j = if j = entity.id then some entity else r.entity? j := by
  unfold entity?
  rw [slot?_install bound]
  split <;> rfl

theorem idOf?_install (entity : EntityType) (name : String) :
    (r.install entity).idOf? name =
      if name = entity.name then some entity.id else r.idOf? name := by
  rw [install_eq]
  exact SortedMap.find?_insert entity.name name entity.id r.byName

theorem byTag?_install (entity : EntityType) (tag : String) :
    (r.install entity).byTag? tag = if tag = entity.tag then some entity.id else r.byTag? tag := by
  rw [install_eq]
  exact SortedMap.find?_insert entity.tag tag entity.id r.byTag

theorem catalog_install (entity : EntityType) :
    (r.install entity).catalog =
      if entity.declaration.root = some .catalog then some entity.id else r.catalog := by
  rw [install_eq]

/-! ### What the tests say -/

theorem nextId_eq_ok_iff {id : EntityId} :
    r.nextId = .ok id ↔ r.size < capacity ∧ id = ⟨r.size⟩ := by
  unfold nextId
  split
  · simp [*, eq_comm]
  · simp [*, fail]

theorem checkFieldType_eq_ok_iff {owner : String} {field : Field} {type : FieldType} :
    r.checkFieldType owner field type = .ok () ↔ type.Within r.size := by
  induction type with
  | scalar _ => simp [checkFieldType, FieldType.Within]
  | optional inner ih => simpa [checkFieldType, FieldType.Within] using ih
  | list inner ih => simpa [checkFieldType, FieldType.Within] using ih
  | map key value _ ih =>
      by_cases scalar : key.isScalar = true
      · simpa [checkFieldType, FieldType.Within, scalar] using ih
      · simp [checkFieldType, FieldType.Within, scalar, fail]
  | reference target =>
      by_cases known : target.index < r.size
      · simp [checkFieldType, FieldType.Within, known]
      · simp [checkFieldType, FieldType.Within, known, fail]
  | embedded target =>
      by_cases known : target.index < r.size
      · simp [checkFieldType, FieldType.Within, known]
      · simp [checkFieldType, FieldType.Within, known, fail]

theorem checkFields_eq_ok {owner : String} {seen : List String} {fields : List Field}
    (passed : r.checkFields owner seen fields = .ok ()) :
    ∀ field ∈ fields, field.type.Within r.size := by
  induction fields generalizing seen with
  | nil => exact fun _ mem => (List.not_mem_nil mem).elim
  | cons field rest ih =>
      rw [checkFields] at passed
      split at passed
      · cases passed
      · obtain ⟨_, type, passed⟩ := bind_eq_ok_iff.mp passed
        exact List.forall_mem_cons.mpr ⟨checkFieldType_eq_ok_iff.mp type, ih passed⟩

theorem parentOf_eq_ok_iff {declaration : Declaration} {parent : Option EntityType} :
    r.parentOf declaration = .ok parent ↔
      (declaration.parent = none ∧ parent = none) ∨
        ∃ id p, declaration.parent = some id ∧ r.entity? id = some p ∧ parent = some p := by
  unfold parentOf
  cases declaration.parent with
  | none => simp [eq_comm]
  | some id =>
      cases found : r.entity? id with
      | none => simp [found, fail]
      | some p => simp [found, eq_comm]

theorem freshId_eq_ok_iff {declaration : Declaration} {id : EntityId} :
    r.freshId declaration = .ok id ↔
      (r.idOf? declaration.name = none ∧ r.nextId = .ok id) ∨
        (r.idOf? declaration.name = some id ∧ r.entity? id = none) := by
  unfold freshId
  cases r.idOf? declaration.name with
  | none => simp
  | some id' =>
      cases found : r.entity? id' with
      | none =>
          simp only [found, Option.isSome_none, Bool.false_eq_true, if_false, Except.ok.injEq,
            reduceCtorEq, false_and, Option.some.injEq, false_or]
          constructor
          · rintro rfl
            exact ⟨rfl, found⟩
          · exact And.left
      | some entity =>
          simp only [found, Option.isSome_some, if_true, fail, reduceCtorEq, false_and,
            Option.some.injEq, false_or, false_iff, not_and]
          rintro rfl
          simp [found]

theorem checkTag_eq_ok_iff {entity : EntityType} :
    r.checkTag entity = .ok () ↔ r.byTag? entity.tag = none := by
  unfold checkTag
  cases r.byTag? entity.tag <;> simp [fail]

theorem checkCatalog_eq_ok_iff {declaration : Declaration} :
    r.checkCatalog declaration = .ok () ↔ r.catalog = none := by
  unfold checkCatalog
  cases r.catalog <;> simp [fail]

/-! ### The invariant -/

/-- A declared type fits the registry that has it at `id`. -/
structure Fits (r : Registry) (id : EntityId) (entity : EntityType) : Prop where
  id_eq : entity.id = id
  tag_eq : entity.tag = Names.identifierName entity.name
  /-- The parent is an ancestor, and all ancestors are declared. -/
  parent_mem : ∀ parent, entity.declaration.parent = some parent → parent ∈ entity.ancestors
  ancestors_declared : ∀ ancestor ∈ entity.ancestors, ∃ e, r.entity? ancestor = some e
  ancestors_nodup : entity.ancestors.Nodup
  notMem_ancestors : id ∉ entity.ancestors
  /-- Declared and effective fields point at known types and have scalar map keys. -/
  fields_within : ∀ field ∈ entity.declaration.fields ++ entity.fields, field.type.Within r.size

/-- The indices say exactly what the slots hold, and the declared types fit together. -/
structure Consistent (r : Registry) : Prop where
  names : ExactIndex r.idOf? r.nameAt
  tags : ExactIndex r.byTag? r.tagAt
  catalog : ∀ id, r.catalog = some id ↔
    ∃ entity, r.entity? id = some entity ∧ entity.declaration.root = some .catalog
  fits : ∀ id entity, r.entity? id = some entity → r.Fits id entity

/-- A later registry has everything that was known, as it was. -/
structure Extends (r r' : Registry) : Prop where
  size_le : r.size ≤ r'.size
  entity? : ∀ id entity, r.entity? id = some entity → r'.entity? id = some entity
  idOf? : ∀ name id, r.idOf? name = some id → r'.idOf? name = some id

theorem Extends.refl : r.Extends r := ⟨Nat.le_refl _, fun _ _ found => found, fun _ _ found => found⟩

theorem Extends.trans {r'' : Registry} (first : r.Extends r') (second : r'.Extends r'') :
    r.Extends r'' where
  size_le := Nat.le_trans first.size_le second.size_le
  entity? id entity found := second.entity? id entity (first.entity? id entity found)
  idOf? name id found := second.idOf? name id (first.idOf? name id found)

theorem Fits.extend {id : EntityId} {entity : EntityType} (fits : r.Fits id entity)
    (ext : r.Extends r') : r'.Fits id entity where
  id_eq := fits.id_eq
  tag_eq := fits.tag_eq
  parent_mem := fits.parent_mem
  ancestors_declared ancestor mem :=
    let ⟨e, found⟩ := fits.ancestors_declared ancestor mem
    ⟨e, ext.entity? ancestor e found⟩
  ancestors_nodup := fits.ancestors_nodup
  notMem_ancestors := fits.notMem_ancestors
  fields_within field mem := (fits.fields_within field mem).mono ext.size_le

theorem consistent_empty : Consistent {} where
  names name id := by simp [idOf?, nameAt, slot?, SortedMap.find?]
  tags tag id := by simp [byTag?, tagAt, Registry.entity?, slot?, SortedMap.find?]
  catalog id := by simp [Registry.entity?, slot?]
  fits id entity found := by simp [Registry.entity?, slot?] at found

/-! ### Appending a reserved name -/

theorem Extends.append {name : String} {id : EntityId} (unknown : r.idOf? name = none) :
    r.Extends (r.append name id) where
  size_le := by
    rw [size_append]
    exact Nat.le_succ r.size
  entity? j entity found := by
    rw [entity?_append]
    exact found
  idOf? other j found := by
    rw [idOf?_append]
    split
    · rename_i same
      rw [same, unknown] at found
      cases found
    · exact found

theorem Consistent.append (consistent : r.Consistent) {name : String} {id : EntityId}
    (unknown : r.idOf? name = none) (next : r.nextId = .ok id) :
    (r.append name id).Consistent := by
  obtain ⟨_, rfl⟩ := nextId_eq_ok_iff.mp next
  have outside : r.slot? ⟨r.size⟩ = none := slot?_eq_none_iff.mpr (Nat.le_refl r.size)
  have entities : (r.append name ⟨r.size⟩).entity? = r.entity? :=
    funext (entity?_append name ⟨r.size⟩)
  refine ⟨?_, ?_, ?_, ?_⟩
  · refine consistent.names.update name ⟨r.size⟩ ?_ ?_ ?_ ?_
    · intro id found
      rw [unknown] at found
      cases found
    · intro other held
      rw [nameAt, outside] at held
      cases held
    · exact fun other => idOf?_append name other ⟨r.size⟩
    · intro id
      rw [nameAt, slot?_append]
      split <;> rfl
  · intro tag id
    rw [tagAt, entities]
    exact consistent.tags tag id
  · intro id
    rw [entities]
    exact consistent.catalog id
  · intro id entity found
    rw [entities] at found
    exact (consistent.fits id entity found).extend (.append unknown)

/-! ### Installing a declared type -/

namespace Admits

variable {declaration : Declaration} {entity : EntityType}

theorem declaration_eq (admits : r.Admits declaration entity) :
    entity.declaration = declaration := by
  obtain ⟨parent, _, same⟩ := admits.flattened
  rw [same]
  rfl

/-- The place of a new type: known by no other name, and not declared. -/
structure Free (r : Registry) (entity : EntityType) : Prop where
  bound : entity.id.index ≤ r.size
  undeclared : r.entity? entity.id = none
  idOf?_eq : ∀ id, r.idOf? entity.name = some id → id = entity.id
  nameAt_eq : ∀ name, r.nameAt entity.id = some name → name = entity.name

/-- A declaration gets a free place, whether its name is new or reserved. -/
theorem free (admits : r.Admits declaration entity) (names : ExactIndex r.idOf? r.nameAt) :
    Free r entity := by
  have name : declaration.name = entity.name := by
    rw [EntityType.name, admits.declaration_eq]
  rcases freshId_eq_ok_iff.mp admits.freshId with ⟨unknown, next⟩ | ⟨known, undeclared⟩
  · obtain ⟨_, last⟩ := nextId_eq_ok_iff.mp next
    have outside : r.slot? entity.id = none :=
      slot?_eq_none_iff.mpr (last ▸ Nat.le_refl r.size)
    refine ⟨Nat.le_of_eq (congrArg EntityId.index last), ?_, ?_, ?_⟩
    · rw [Registry.entity?, outside]
      rfl
    · intro id found
      rw [← name, unknown] at found
      cases found
    · intro other held
      rw [nameAt, outside] at held
      cases held
  · rw [name] at known
    have held := (names entity.name entity.id).mp known
    refine ⟨?_, undeclared, ?_, ?_⟩
    · by_contra beyond
      rw [nameAt, slot?_eq_none_iff.mpr (by omega)] at held
      cases held
    · intro id found
      exact Option.some.inj (found.symm.trans known)
    · intro other held'
      exact Option.some.inj (held'.symm.trans held)

/-- A new field list has no other fields than the inherited and the declared ones. -/
theorem mem_of_mem_addField {fields : List Field} {field f : Field}
    (mem : f ∈ addField fields field) : f ∈ fields ∨ f = field := by
  unfold addField at mem
  split at mem
  · obtain ⟨g, old, rfl⟩ := List.mem_map.mp mem
    split
    · exact .inr rfl
    · exact .inl old
  · rcases List.mem_append.mp mem with old | new
    · exact .inl old
    · exact .inr (List.mem_singleton.mp new)

theorem mem_of_mem_foldl_addField {declared inherited : List Field} {f : Field}
    (mem : f ∈ declared.foldl addField inherited) : f ∈ inherited ∨ f ∈ declared := by
  induction declared generalizing inherited with
  | nil => exact .inl mem
  | cons field rest ih =>
      rcases ih mem with old | new
      · rcases mem_of_mem_addField old with old | rfl
        · exact .inl old
        · exact .inr List.mem_cons_self
      · exact .inr (List.mem_cons_of_mem field new)

/-- A declared type has fields within the registry if its parent has. -/
theorem fields_within (admits : r.Admits declaration entity) (consistent : r.Consistent) :
    ∀ field ∈ entity.declaration.fields ++ entity.fields, field.type.Within r.size := by
  have declared := checkFields_eq_ok admits.fields
  obtain ⟨parent, found, same⟩ := admits.flattened
  intro field mem
  rw [admits.declaration_eq] at mem
  rcases List.mem_append.mp mem with own | effective
  · exact declared field own
  · rw [same] at effective
    rcases mem_of_mem_foldl_addField effective with inherited | own
    · rcases parentOf_eq_ok_iff.mp found with ⟨_, rfl⟩ | ⟨id, p, _, at_, rfl⟩
      · exact (List.not_mem_nil inherited).elim
      · exact (consistent.fits id p at_).fields_within field (List.mem_append_right _ inherited)
    · exact declared field own

/-- The ancestors of a declared type are its parent, which is declared, and the parent's. -/
theorem ancestors_eq (admits : r.Admits declaration entity) (consistent : r.Consistent) :
    (entity.declaration.parent = none ∧ entity.ancestors = []) ∨
      ∃ id p, entity.declaration.parent = some id ∧ r.entity? id = some p ∧
        entity.ancestors = id :: p.ancestors := by
  rw [admits.declaration_eq]
  obtain ⟨parent, found, same⟩ := admits.flattened
  rcases parentOf_eq_ok_iff.mp found with ⟨root, rfl⟩ | ⟨id, p, child, at_, rfl⟩
  · exact .inl ⟨root, by rw [same]; rfl⟩
  · refine .inr ⟨id, p, child, at_, ?_⟩
    rw [same, ← (consistent.fits id p at_).id_eq]
    rfl

end Admits

theorem Extends.install {declaration : Declaration} {entity : EntityType}
    (admits : r.Admits declaration entity) (names : ExactIndex r.idOf? r.nameAt) :
    r.Extends (r.install entity) := by
  have free := admits.free names
  refine ⟨size_le_install entity, ?_, ?_⟩
  · intro id e found
    rw [entity?_install free.bound, if_neg]
    · exact found
    · rintro rfl
      rw [free.undeclared] at found
      cases found
  · intro name id found
    rw [idOf?_install]
    split
    · rename_i same
      rw [free.idOf?_eq id (same ▸ found)]
    · exact found

theorem Fits.install {declaration : Declaration} {entity : EntityType}
    (admits : r.Admits declaration entity) (consistent : r.Consistent) :
    r.Fits entity.id entity := by
  have free := admits.free consistent.names
  have tag : entity.tag = Names.identifierName entity.name := by
    obtain ⟨parent, _, same⟩ := admits.flattened
    rw [same]
    rfl
  have fields := admits.fields_within consistent
  rcases admits.ancestors_eq consistent with ⟨root, none⟩ | ⟨id, p, child, at_, chain⟩
  · refine ⟨rfl, tag, ?_, ?_, ?_, ?_, fields⟩
    · intro parent some
      rw [root] at some
      cases some
    · simp [none]
    · simp [none]
    · simp [none]
  · have above := consistent.fits id p at_
    refine ⟨rfl, tag, ?_, ?_, ?_, ?_, fields⟩
    · intro parent some
      rw [child] at some
      cases some
      rw [chain]
      exact List.mem_cons_self
    · rw [chain]
      exact List.forall_mem_cons.mpr ⟨⟨p, at_⟩, above.ancestors_declared⟩
    · rw [chain]
      exact List.nodup_cons.mpr ⟨above.notMem_ancestors, above.ancestors_nodup⟩
    · -- The new type is not declared yet, and all its ancestors are.
      rw [chain]
      intro mem
      obtain ⟨e, found⟩ : ∃ e, r.entity? entity.id = some e := by
        rcases List.mem_cons.mp mem with same | older
        · exact ⟨p, same ▸ at_⟩
        · exact above.ancestors_declared entity.id older
      rw [free.undeclared] at found
      cases found

/-- The catalog is still the declared root of the catalog, which the new type is only if there was
none. -/
theorem Consistent.catalog_eq_some_iff_install {declaration : Declaration} {entity : EntityType}
    (consistent : r.Consistent) (admits : r.Admits declaration entity) (id : EntityId) :
    (r.install entity).catalog = some id ↔ ∃ e, (r.install entity).entity? id = some e ∧
      e.declaration.root = some .catalog := by
  have free := admits.free consistent.names
  rw [catalog_install, entity?_install free.bound, admits.declaration_eq]
  by_cases root : declaration.root = some .catalog
  · have none : ∀ id, ¬ ∃ e, r.entity? id = some e ∧ e.declaration.root = some .catalog := by
      intro id other
      have taken := (consistent.catalog id).mpr other
      rw [checkCatalog_eq_ok_iff.mp (admits.catalog root)] at taken
      cases taken
    rw [if_pos root]
    by_cases same : id = entity.id
    · simp [same, admits.declaration_eq, root]
    · rw [if_neg same]
      constructor
      · intro h
        exact absurd (Option.some.inj h).symm same
      · intro other
        exact absurd other (none id)
  · rw [if_neg root]
    by_cases same : id = entity.id
    · have other := consistent.catalog entity.id
      rw [free.undeclared] at other
      simp [same, admits.declaration_eq, root, other]
    · rw [if_neg same]
      exact consistent.catalog id

theorem Consistent.install {declaration : Declaration} {entity : EntityType}
    (consistent : r.Consistent) (admits : r.Admits declaration entity) :
    (r.install entity).Consistent := by
  have free := admits.free consistent.names
  have ext := Extends.install admits consistent.names
  refine ⟨?_, ?_, consistent.catalog_eq_some_iff_install admits, ?_⟩
  · refine consistent.names.update entity.name entity.id free.idOf?_eq free.nameAt_eq
      (idOf?_install entity) ?_
    intro id
    rw [nameAt, slot?_install free.bound]
    split <;> rfl
  · refine consistent.tags.update entity.tag entity.id ?_ ?_ (byTag?_install entity) ?_
    · intro id found
      rw [checkTag_eq_ok_iff.mp admits.tag] at found
      cases found
    · intro tag held
      rw [tagAt, free.undeclared] at held
      cases held
    · intro id
      rw [tagAt, entity?_install free.bound]
      split <;> rfl
  · intro id e found
    rw [entity?_install free.bound] at found
    split at found
    · rename_i same
      cases found
      rw [same]
      exact (Fits.install admits consistent).extend ext
    · exact (consistent.fits id e found).extend ext

/-! ### Runs -/

/-- **Every reachable registry is consistent.** -/
theorem Reachable.consistent (reachable : r.Reachable) : r.Consistent :=
  reachable.induction consistent_empty
    (fun _ _ _ consistent unknown next => consistent.append unknown next)
    (fun _ _ _ consistent admits => consistent.install admits)

/-- A successful call only adds to what is known. -/
theorem Call.extends_of_ok {call : Call} {id : EntityId} (names : ExactIndex r.idOf? r.nameAt)
    (done : call.update.run r = .ok id r') : r.Extends r' := by
  cases call with
  | reserve name =>
      rcases Update.run_reserve_eq_ok_iff.mp done with ⟨_, rfl⟩ | ⟨unknown, _, rfl⟩
      · exact .refl
      · exact .append unknown
  | declare declaration =>
      obtain ⟨entity, admits, _, rfl⟩ := Update.run_declare_eq_ok_iff.mp done
      exact .install admits names

/-- A registry grows with every call, failing ones included. -/
theorem Reachable.extends_after (reachable : r.Reachable) (call : Call) :
    r.Extends (r.after call) := by
  unfold Registry.after
  split
  · rename_i id r' done
    exact call.extends_of_ok reachable.consistent.names done
  · rename_i e r' failed
    rw [call.error_unchanged failed]
    exact .refl

namespace Consistent

theorem idOf?_eq_some_iff (consistent : r.Consistent) {name : String} {id : EntityId} :
    r.idOf? name = some id ↔ ∃ slot, r.slot? id = some slot ∧ slot.name = name :=
  (consistent.names name id).trans Option.map_eq_some_iff

theorem index_lt_of_idOf? (consistent : r.Consistent) {name : String} {id : EntityId}
    (found : r.idOf? name = some id) : id.index < r.size := by
  obtain ⟨slot, at_, _⟩ := consistent.idOf?_eq_some_iff.mp found
  by_contra outside
  rw [slot?_eq_none_iff.mpr (Nat.le_of_not_lt outside)] at at_
  cases at_

/-- The places of the registry are the identities of its names, each of exactly one name. -/
theorem index_lt_iff (consistent : r.Consistent) (id : EntityId) :
    id.index < r.size ↔ ∃! name, r.idOf? name = some id := by
  constructor
  · intro inside
    cases at_ : r.slot? id with
    | none => exact absurd (slot?_eq_none_iff.mp at_) (Nat.not_le_of_lt inside)
    | some slot =>
        have known := consistent.idOf?_eq_some_iff.mpr ⟨slot, at_, rfl⟩
        exact ⟨slot.name, known, fun name found => consistent.names.key_unique found known⟩
  · rintro ⟨name, found, _⟩
    exact consistent.index_lt_of_idOf? found

/-- The names of known types tell them apart. -/
theorem nameOf_inj (consistent : r.Consistent) {a b : EntityId} (knownA : a.index < r.size)
    (knownB : b.index < r.size) (same : r.nameOf a = r.nameOf b) : a = b := by
  have named : ∀ id : EntityId, id.index < r.size → r.idOf? (r.nameOf id) = some id := by
    intro id known
    obtain ⟨slot, at_⟩ : ∃ slot, r.slot? id = some slot := ⟨_, List.getElem?_eq_getElem known⟩
    exact consistent.idOf?_eq_some_iff.mpr ⟨slot, at_, by rw [nameOf, at_]; rfl⟩
  have found := named a knownA
  rw [same, named b knownB] at found
  exact (Option.some.inj found).symm

/-- The tags of declared types tell them apart. -/
theorem eq_of_tag (consistent : r.Consistent) {a b : EntityId} {first second : EntityType}
    (atFirst : r.entity? a = some first) (atSecond : r.entity? b = some second)
    (same : first.tag = second.tag) : a = b := by
  have found : ∀ id entity, r.entity? id = some entity → r.byTag? entity.tag = some id :=
    fun id entity declared => (consistent.tags entity.tag id).mpr (by rw [tagAt, declared]; rfl)
  exact Option.some.inj ((found a first atFirst).symm.trans (same ▸ found b second atSecond))

/-- There is at most one root of the catalog. -/
theorem catalog_unique (consistent : r.Consistent) {a b : EntityId} {first second : EntityType}
    (atFirst : r.entity? a = some first) (firstRoot : first.declaration.root = some .catalog)
    (atSecond : r.entity? b = some second) (secondRoot : second.declaration.root = some .catalog) :
    a = b := by
  have isFirst := (consistent.catalog a).mpr ⟨first, atFirst, firstRoot⟩
  have isSecond := (consistent.catalog b).mpr ⟨second, atSecond, secondRoot⟩
  exact Option.some.inj (isFirst.symm.trans isSecond)

end Consistent

/-- There are no more known types than identities can tell apart. -/
theorem Reachable.size_le_capacity (reachable : r.Reachable) : r.size ≤ capacity := by
  refine (reachable.induction (motive := fun r => r.Consistent ∧ r.size ≤ capacity)
    ⟨consistent_empty, Nat.zero_le _⟩ ?_ ?_).2
  · rintro r name id ⟨consistent, _⟩ unknown next
    refine ⟨consistent.append unknown next, ?_⟩
    rw [size_append]
    exact (nextId_eq_ok_iff.mp next).1
  · rintro r declaration entity ⟨consistent, room⟩ admits
    refine ⟨consistent.install admits, ?_⟩
    rw [size_install]
    split
    · exact room
    · rename_i new
      rcases freshId_eq_ok_iff.mp admits.freshId with ⟨_, next⟩ | ⟨reserved, _⟩
      · exact (nextId_eq_ok_iff.mp next).1
      · exact absurd (consistent.index_lt_of_idOf? reserved) new

/-- **Runs keep the registry consistent, and calls are atomic.** After any sequence of calls, names
and identities correspond one to one, the tags and the catalog are those of the declared types, and
a further call either fails and changes nothing or only adds to what is known. -/
theorem run_consistent_atomic (calls : List Call) :
    (run calls).Consistent ∧
      (∀ id, id.index < (run calls).size ↔ ∃! name, (run calls).idOf? name = some id) ∧
      (∀ a b first second, (run calls).entity? a = some first →
        first.declaration.root = some .catalog → (run calls).entity? b = some second →
        second.declaration.root = some .catalog → a = b) ∧
      (∀ (call : Call) e r', call.update.run (run calls) = .error e r' → r' = run calls) ∧
      (∀ (call : Call) id r', call.update.run (run calls) = .ok id r' →
        (run calls).Extends r') := by
  have consistent : (run calls).Consistent := Reachable.consistent ⟨calls, rfl⟩
  refine ⟨consistent, consistent.index_lt_iff, ?_, ?_, ?_⟩
  · intro a b first second atFirst firstRoot atSecond secondRoot
    exact consistent.catalog_unique atFirst firstRoot atSecond secondRoot
  · intro call e r' failed
    exact call.error_unchanged failed
  · intro call id r' done
    exact Call.extends_of_ok consistent.names done

end Registry

end EntityForge
