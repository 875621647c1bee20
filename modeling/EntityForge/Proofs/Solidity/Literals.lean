import EntityForge.Proofs.Model.Faults
import EntityForge.Proofs.Model.Verified
import EntityForge.Solidity.Value

/-!
Rendering types and values of a verified model. Names and layouts are looked up for declared types
only, so they are found; a value that the visit of its references accepts is accepted again, shape by
shape, when it is written as a literal (`failsOnly_literal`), and no zero value needs itself, since no
type embeds itself in turn (`failsOnly_zero`). What may still fail is what the target cannot express:
a map.
-/

namespace EntityForge

theorem FieldType.Grounded.unwrap {schema : Registry} {type : FieldType}
    (grounded : type.Grounded schema) : type.unwrap.Grounded schema := by
  induction type with
  | optional inner ih => exact ih grounded
  | scalar _ | list _ | map _ _ | reference _ | embedded _ => exact grounded

theorem failsOnly_get {schema : Registry} {type : EntityId} {allowed : Error → Prop}
    (declares : schema.Declares type) : FailsOnly allowed (schema.get type) := by
  obtain ⟨entity, declared⟩ := declares
  exact .of_ok (Registry.get_eq_ok_iff.mpr declared)

namespace Solidity

variable {m : ResolvedModel} {target : EntityId} {type : FieldType} {allowed : Error → Prop}

section

variable (verified : m.Verified)

include verified

/-! ### Names and layouts -/

theorem failsOnly_namesOf (declares : m.schema.Declares target) :
    FailsOnly allowed (m.namesOf target) := by
  obtain ⟨entity, declared⟩ := declares
  exact .of_ok (verified.namesOf_eq target entity declared)

/-- The identifier of a declared type is the tag of references to it. -/
theorem identifierOf_eq {entity : EntityType} (declared : m.schema.entity? target = some entity) :
    identifierOf m target = .ok entity.tag := by
  rw [identifierOf, verified.namesOf_eq target entity declared,
    (verified.consistent.fits target entity declared).tag_eq]
  rfl

theorem structName_eq {entity : EntityType} (declared : m.schema.entity? target = some entity) :
    structName m target = .ok (entity.tag ++ "_t") := by
  rw [structName, identifierOf_eq verified declared]
  rfl

/-- Structs of different types have different names, as the types have different tags. -/
theorem structName_inj {other : EntityId} {struct : String} (declares : m.schema.Declares target)
    (declares' : m.schema.Declares other) (named : structName m target = .ok struct)
    (named' : structName m other = .ok struct) : target = other := by
  obtain ⟨entity, declared⟩ := declares
  obtain ⟨entity', declared'⟩ := declares'
  rw [structName_eq verified declared] at named
  rw [structName_eq verified declared'] at named'
  have same : entity.tag = entity'.tag :=
    (String.append_left_inj _).mp (Except.ok.inj (named.trans named'.symm))
  exact verified.consistent.eq_of_tag declared declared' same

theorem failsOnly_identifierOf (declares : m.schema.Declares target) :
    FailsOnly allowed (identifierOf m target) := by
  obtain ⟨entity, declared⟩ := declares
  exact .of_ok (identifierOf_eq verified declared)

theorem failsOnly_canonicalOf (declares : m.schema.Declares target) :
    FailsOnly allowed (canonicalOf m target) :=
  (failsOnly_namesOf verified declares).map

theorem failsOnly_structName (declares : m.schema.Declares target) :
    FailsOnly allowed (structName m target) := by
  obtain ⟨entity, declared⟩ := declares
  exact .of_ok (structName_eq verified declared)

theorem failsOnly_dataContractName (declares : m.schema.Declares target) :
    FailsOnly allowed (dataContractName m target) :=
  (failsOnly_canonicalOf verified declares).map

omit verified in
theorem failsOnly_storedById (declares : m.schema.Declares target) :
    FailsOnly allowed (storedById m target) :=
  (failsOnly_get declares).map

theorem failsOnly_solType (grounded : type.Grounded m.schema) : FailsOnly allowed (solType m type) := by
  induction type with
  | scalar kind => cases kind <;> exact .ok _
  | reference _ => exact .ok _
  | optional inner ih => exact ih grounded
  | list element ih => exact (ih grounded).map
  | map key value _ ih =>
      obtain ⟨scalar, below⟩ := grounded
      have keyed : FailsOnly allowed (solType m key) := by
        cases key with
        | scalar kind => cases kind <;> exact .ok _
        | optional _ | list _ | map _ _ | reference _ | embedded _ => cases scalar
      exact keyed.bind fun _ _ => (ih below).map
  | embedded target =>
      refine (failsOnly_storedById grounded).bind fun byId _ => ?_
      cases byId with
      | true => exact .ok _
      | false => exact (failsOnly_structName verified grounded).map

omit verified in
theorem failsOnly_isPassedByReference (grounded : type.Grounded m.schema) :
    FailsOnly allowed (isPassedByReference m type) := by
  unfold isPassedByReference
  split
  case h_5 => exact (failsOnly_storedById grounded).map
  all_goals exact .ok _

theorem failsOnly_returnType (grounded : type.Grounded m.schema) :
    FailsOnly allowed (returnType m type) :=
  (failsOnly_solType verified grounded).bind fun _ _ =>
    (failsOnly_isPassedByReference grounded).map

/-! ### Zero values -/

/-- Everything on the chain embeds the type in turn. -/
def LeadsTo (m : ResolvedModel) (chain : List EntityId) (target : EntityId) : Prop :=
  ∀ t ∈ chain, Relation.TransGen m.schema.Embeds t target

omit verified in
theorem LeadsTo.concat {chain : List EntityId} {next : EntityId} (leads : LeadsTo m chain target)
    (embeds : m.schema.Embeds target next) : LeadsTo m (chain ++ [target]) next := by
  intro t mem
  rcases List.mem_append.mp mem with above | last
  · exact (leads t above).tail embeds
  · exact List.mem_singleton.mp last ▸ .single embeds

/-- **The zero value of a type is written unless it needs a map.** It is looked up among declared types
only, and never comes back to a type of its chain, which would embed itself. -/
theorem failsOnly_zero (maps : allowed mappingError) (chain : List EntityId)
    (grounded : type.Grounded m.schema)
    (leads : ∀ target, type.Stores true target → LeadsTo m chain target) :
    FailsOnly allowed (zero m chain type) := by
  refine zero.induct m
    (fun chain type => type.Grounded m.schema →
      (∀ target, type.Stores true target → LeadsTo m chain target) →
      FailsOnly allowed (zero m chain type))
    (fun chain target => m.schema.Declares target → LeadsTo m chain target →
      FailsOnly allowed (zeroStruct m chain target))
    ?int ?reference ?string ?optional ?list ?unknown ?byId ?struct ?map ?undeclared ?cycle ?members
    chain type grounded leads
  case int =>
    intro chain _ _
    rw [zero]
    exact .ok _
  case reference =>
    intro chain target _ _
    rw [zero]
    exact .ok _
  case string =>
    intro chain _ _
    rw [zero]
    exact .ok _
  case optional =>
    intro chain inner ih grounded leads
    rw [zero]
    exact ih grounded fun target stores => leads target (.optional stores)
  case list =>
    intro chain element grounded _
    rw [zero]
    have layout : FailsOnly allowed (solType m element) := failsOnly_solType verified grounded
    exact layout.map
  case unknown =>
    intro chain target e failed grounded _
    have known : FailsOnly allowed (storedById m target) := failsOnly_storedById grounded
    rw [zero, failed]
    exact .error (known e failed)
  case byId =>
    intro chain target byId _ _
    rw [zero, byId]
    exact .ok _
  case struct =>
    intro chain target inPlace ih grounded leads
    rw [zero, inPlace]
    exact ih grounded (leads target (.embedded target))
  case map =>
    intro chain key value _ _
    rw [zero]
    exact .error maps
  case undeclared =>
    intro chain target e failed declares _
    rw [zeroStruct_eq, failed]
    exact .error (failsOnly_get declares e failed)
  case cycle =>
    intro chain target entity found onChain declares leads
    exact absurd (leads target onChain) (verified.not_transGen_self declares)
  case members =>
    intro chain target entity found fresh _ ih declares leads
    have declared := Registry.get_eq_ok_iff.mp found
    have members : FailsOnly allowed (entity.fields.mapM fun field => do
        return (memberName field.name, ← zero m (chain ++ [target]) field.type)) :=
      .mapM fun field mem => (ih field (verified.grounded declared field mem)
        fun t stores => leads.concat ⟨entity, declared, field, mem, stores⟩).map
    rw [zeroStruct_of_notMem found fresh]
    exact members.bind fun _ _ => (failsOnly_structName verified declares).map

/-- The zero value of a type by itself. -/
theorem failsOnly_zero_nil (maps : allowed mappingError) (grounded : type.Grounded m.schema) :
    FailsOnly allowed (zero m [] type) :=
  failsOnly_zero verified maps [] grounded fun _ _ _ mem => (List.not_mem_nil mem).elim

/-! ### Values -/

omit verified in
theorem failsOnly_addArray (element : SolType) (items : List Literal) :
    FailsOnlyRun allowed (addArray element items) :=
  fun _ => .ok _

omit verified in
theorem failsOnly_writeArrays : FailsOnlyRun allowed writeArrays :=
  fun _ => .ok _

/-- A list is written if its items are. -/
theorem failsOnly_list {element : FieldType} {items : List Value} (fits : type.unwrap = .list element)
    (grounded : element.Grounded m.schema)
    (each : ∀ item ∈ items, FailsOnlyRun allowed (literal m element item)) :
    FailsOnlyRun allowed (literal m type (.list items)) := by
  rw [literal, fits]
  dsimp only
  rw [itemLiterals_eq_mapM]
  refine FailsOnlyRun.bind (.mapM each) fun literals => ?_
  exact (FailsOnlyRun.lift (failsOnly_solType verified grounded)).bind fun layout =>
    failsOnly_addArray layout literals

/-- A record is written if what it sets is: the other fields have the zero values of their types. -/
theorem failsOnly_record (maps : allowed mappingError) {target actual : EntityId}
    {entity : EntityType} {fields : List (String × Value)} (fits : type.unwrap = .embedded target)
    (got : m.schema.get actual = .ok entity)
    (each : ∀ field ∈ entity.fields, ∀ v, SortedMap.find? compare field.name fields = some v →
      FailsOnlyRun allowed (literal m field.type v)) :
    FailsOnlyRun allowed (literal m type (.record actual fields)) := by
  have declared := Registry.get_eq_ok_iff.mp got
  have members : ∀ field ∈ entity.fields, FailsOnlyRun allowed (literal m field.type
      ((SortedMap.find? compare field.name fields).getD .nil)) := by
    intro field mem
    cases held : SortedMap.find? compare field.name fields with
    | none =>
        rw [Option.getD_none, literal]
        exact .lift (failsOnly_zero_nil verified maps (verified.grounded declared field mem))
    | some v => exact each field mem v held
  rw [literal_record fits]
  refine FailsOnlyRun.lift_bind (.of_ok got) fun entity' got' => ?_
  cases got.symm.trans got'
  refine FailsOnlyRun.bind (.mapM fun field mem => (members field mem).bind fun _ => .pure _)
    fun _ => ?_
  exact (FailsOnlyRun.lift (failsOnly_structName verified ⟨entity, declared⟩)).bind fun _ => .pure _

/-- **A value that a visit accepts is written unless it needs a map**, since it has the shape of its
type at every place. -/
theorem failsOnly_place (maps : allowed mappingError) (p : Resolution.Place) : p.type.Grounded m.schema →
    (∃ found, p.visit m.schema m.instances = .ok found) →
      FailsOnlyRun allowed (literal m p.type p.value) := by
  induction p using Resolution.Place.induction m.schema with
  | step p ih =>
      intro grounded accepted
      obtain ⟨⟨here, tested⟩, visits⟩ := Resolution.Place.exists_visit_iff.mp accepted
      let Written (type : FieldType) (value : Value) : Prop :=
        type.Grounded m.schema → FailsOnlyRun allowed (literal m type value)
      have inside : ∀ q ∈ p.parts m.schema, Written q.type q.value :=
        fun q mem grounded => ih q mem grounded (visits q mem)
      have unwrapped := grounded.unwrap
      unfold Resolution.Place.own at tested
      generalize fits : p.type.unwrap = type at tested unwrapped
      generalize content : p.value = value at tested ⊢
      split at tested
      case h_1 =>
        rw [literal]
        exact .lift (failsOnly_zero_nil verified maps grounded)
      case h_2 =>
        rw [literal, fits]
        exact .pure _
      case h_3 =>
        rw [literal, fits]
        exact .pure _
      case h_4 element items =>
        have items := (Resolution.Place.forall_parts_list (P := Written) fits content).mp inside
        exact failsOnly_list verified fits unwrapped fun item mem => items item mem unwrapped
      case h_5 =>
        rw [literal, fits]
        exact .throw maps
      case h_6 target r =>
        obtain ⟨ordinal, resolved, _⟩ := bind_eq_ok_iff.mp tested
        obtain ⟨entity, _, typed⟩ := bind_eq_ok_iff.mp (inContext_eq_ok_iff.mp resolved)
        rw [literal, fits]
        split at typed
        · cases typed
        · obtain ⟨key, here, _⟩ := bind_eq_ok_iff.mp typed
          have same : m.resolve r = .ok key := here
          exact (FailsOnlyRun.lift (.of_ok same)).bind fun _ => .pure _
      case h_7 target actual fields =>
        obtain ⟨_, _, tested⟩ := bind_eq_ok_iff.mp tested
        obtain ⟨entity, got, _⟩ := bind_eq_ok_iff.mp tested
        have declared := Registry.get_eq_ok_iff.mp got
        have set := (Resolution.Place.forall_parts_record (P := Written) fits content declared).mp
          inside
        exact failsOnly_record verified maps fits got fun field mem v held =>
          set field mem v held (verified.grounded declared field mem)
      case h_8 => cases tested

/-- The same of a value that is visited along a type and a path. -/
theorem failsOnly_literal (maps : allowed mappingError) {value : Value} {path : String}
    (grounded : type.Grounded m.schema)
    (accepted : ∃ found, Resolution.references m.schema m.instances type value path = .ok found) :
    FailsOnlyRun allowed (literal m type value) :=
  failsOnly_place verified maps { type, value, path } grounded accepted

end

end Solidity

end EntityForge
