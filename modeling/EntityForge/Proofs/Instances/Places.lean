import EntityForge.Instances.Resolution
import EntityForge.Proofs.Schema.Validation

/-!
Instances as trees of places. A place is a value with the type that is declared there, and its parts
are the places below it, in the order of a visit. A visit does something at the place itself and then
visits the parts (`Place.visit_eq`), so what is said of visits is said by induction over the places
(`Place.induction`): of what is done at a place (`Place.own_ok`, `Place.own_error`), and of a place
whose parts have been settled.

Positions are lists of numbers that each pick a part, so the lexicographic order of positions is the
order in which a visit comes to the places.
-/

namespace EntityForge.Resolution

/-- A value inside an instance, with the type that is declared there and the path to it. -/
structure Place where
  type : FieldType
  value : Value
  path : String

namespace Place

/-- The places directly below: the items of a list, the values of a map, and what a record sets of the
effective fields of its own type. -/
def parts (schema : Registry) (p : Place) : List Place :=
  match p.type.unwrap, p.value with
  | .list element, .list items =>
    items.mapIdx fun n item => { type := element, value := item, path := s!"{p.path}[{n}]" }
  | .map _ inner, .map entries =>
    entries.map fun (key, value) => { type := inner, value, path := s!"{p.path}[{key.inspect}]" }
  | .embedded _, .record actual fields =>
    match schema.entity? actual with
    | some entity => entity.fields.filterMap fun field =>
        (SortedMap.find? compare field.name fields).map fun value =>
          { type := field.type, value, path := fieldPath p.path field.name }
    | none => []
  | _, _ => []

/-- The place at a position. -/
def at? (schema : Registry) (p : Place) : List Nat → Option Place
  | [] => some p
  | n :: rest => (p.parts schema)[n]?.bind (at? schema · rest)

/-- The record of an instance as a place. -/
def ofInstance (i : Instance) : Place :=
  { type := .embedded i.type, value := i.record.toValue, path := "" }

variable {schema : Registry} {p q : Place}

theorem mem_parts_list {element : FieldType} {items : List Value}
    (type : p.type.unwrap = .list element) (value : p.value = .list items) :
    q ∈ p.parts schema ↔ ∃ (n : Nat) (item : Value), items[n]? = some item ∧
      q = { type := element, value := item, path := s!"{p.path}[{n}]" } := by
  simp only [parts, type, value, List.mem_mapIdx, List.getElem?_eq_some_iff]
  constructor
  · rintro ⟨n, inside, rfl⟩
    exact ⟨n, items[n], ⟨inside, rfl⟩, rfl⟩
  · rintro ⟨n, _, ⟨inside, rfl⟩, rfl⟩
    exact ⟨n, inside, rfl⟩

theorem mem_parts_map {key inner : FieldType} {entries : List (Value × Value)}
    (type : p.type.unwrap = .map key inner) (value : p.value = .map entries) :
    q ∈ p.parts schema ↔ ∃ k v, (k, v) ∈ entries ∧
      q = { type := inner, value := v, path := s!"{p.path}[{k.inspect}]" } := by
  simp [parts, type, value, eq_comm]

theorem mem_parts_record {target actual : EntityId} {fields : List (String × Value)}
    {entity : EntityType} (type : p.type.unwrap = .embedded target)
    (value : p.value = .record actual fields) (found : schema.entity? actual = some entity) :
    q ∈ p.parts schema ↔ ∃ field ∈ entity.fields, ∃ v,
      SortedMap.find? compare field.name fields = some v ∧
        q = { type := field.type, value := v, path := fieldPath p.path field.name } := by
  simp only [parts, type, value, found, List.mem_filterMap, Option.map_eq_some_iff, eq_comm (a := q)]

/-- What is said of the types and values of all parts is said of the contents of the place. -/
theorem forall_parts_list {P : FieldType → Value → Prop} {element : FieldType} {items : List Value}
    (type : p.type.unwrap = .list element) (value : p.value = .list items) :
    (∀ q ∈ p.parts schema, P q.type q.value) ↔ ∀ item ∈ items, P element item := by
  constructor
  · intro all item mem
    obtain ⟨n, here⟩ := List.mem_iff_getElem?.mp mem
    exact all _ ((mem_parts_list type value).mpr ⟨n, item, here, rfl⟩)
  · intro each q mem
    obtain ⟨n, item, here, rfl⟩ := (mem_parts_list type value).mp mem
    exact each item (List.mem_of_getElem? here)

theorem forall_parts_map {P : FieldType → Value → Prop} {key inner : FieldType}
    {entries : List (Value × Value)} (type : p.type.unwrap = .map key inner)
    (value : p.value = .map entries) :
    (∀ q ∈ p.parts schema, P q.type q.value) ↔ ∀ entry ∈ entries, P inner entry.2 := by
  constructor
  · intro all entry mem
    exact all _ ((mem_parts_map type value).mpr ⟨entry.1, entry.2, mem, rfl⟩)
  · intro each q mem
    obtain ⟨k, v, listed, rfl⟩ := (mem_parts_map type value).mp mem
    exact each (k, v) listed

theorem forall_parts_record {P : FieldType → Value → Prop} {target actual : EntityId}
    {entity : EntityType} {fields : List (String × Value)} (type : p.type.unwrap = .embedded target)
    (value : p.value = .record actual fields) (found : schema.entity? actual = some entity) :
    (∀ q ∈ p.parts schema, P q.type q.value) ↔ ∀ field ∈ entity.fields, ∀ v,
      SortedMap.find? compare field.name fields = some v → P field.type v := by
  constructor
  · intro all field mem v set
    exact all _ ((mem_parts_record type value found).mpr ⟨field, mem, v, set, rfl⟩)
  · intro each q mem
    obtain ⟨field, listed, v, set, rfl⟩ := (mem_parts_record type value found).mp mem
    exact each field listed v set

/-- What is below a place is smaller. -/
theorem sizeOf_lt_of_mem_parts (mem : q ∈ p.parts schema) : sizeOf q.value < sizeOf p.value := by
  unfold parts at mem
  split at mem
  · rename_i items _ value
    obtain ⟨n, inside, rfl⟩ := List.mem_mapIdx.mp mem
    have smaller := List.sizeOf_lt_of_mem (List.getElem_mem inside)
    rw [value, Value.list.sizeOf_spec]
    dsimp only
    omega
  · rename_i entries _ value
    obtain ⟨⟨k, v⟩, listed, rfl⟩ := List.mem_map.mp mem
    have smaller := List.sizeOf_lt_of_mem listed
    rw [Prod.mk.sizeOf_spec] at smaller
    rw [value, Value.map.sizeOf_spec]
    dsimp only
    omega
  · rename_i actual fields _ value
    split at mem
    · obtain ⟨field, _, here⟩ := List.mem_filterMap.mp mem
      obtain ⟨v, set, rfl⟩ := Option.map_eq_some_iff.mp here
      have smaller := SortedMap.sizeOf_lt_of_find? set
      rw [value, Value.record.sizeOf_spec]
      dsimp only
      omega
    · cases mem
  · cases mem

/-- A place is settled once its parts are. -/
theorem induction (schema : Registry) {motive : Place → Prop}
    (step : ∀ p, (∀ q ∈ p.parts schema, motive q) → motive p) (p : Place) : motive p :=
  step p fun q _ => induction schema step q
termination_by sizeOf p.value
decreasing_by exact sizeOf_lt_of_mem_parts ‹_›

/-! ### Visits -/

variable {instances : InstanceRegistry}

/-- The visit of a place. -/
def visit (schema : Registry) (instances : InstanceRegistry) (p : Place) :
    Except Error (List ResolvedReference) :=
  references schema instances p.type p.value p.path

/-- What a visit does at the place itself: it tests the shape of the value and looks up a reference. -/
def own (schema : Registry) (instances : InstanceRegistry) (p : Place) :
    Except Error (List ResolvedReference) :=
  match p.type.unwrap, p.value with
  | _, .nil | .scalar .int, .int _ | .scalar .string, .string _ | .list _, .list _ | .map _ _, .map _ =>
    .ok []
  | .reference target, .ref r => do
    let ordinal ← inContext { field := some p.path } (resolveTyped schema instances r target)
    return [{ path := p.path, target, id := r.id, ordinal }]
  | .embedded target, .record actual _ => do
    let declared ← schema.get target
    let entity ← schema.get actual
    if entity.id ≠ declared.id ∧ !entity.descendsFrom declared.id then
      inContext { field := some p.path } (fail (.valueMismatch declared.name entity.name))
    return []
  | type, value =>
    inContext { field := some p.path } (fail (.valueMismatch (schema.describe type) value.kindName))

/-- The results for the parts, one after the other. -/
def below (schema : Registry) (instances : InstanceRegistry) (parts : List Place) :
    Except Error (List ResolvedReference) := do
  return (← parts.mapM (visit schema instances)).flatten

theorem below_cons (parts : List Place) : below schema instances (p :: parts) = do
    return (← visit schema instances p) ++ (← below schema instances parts) := by
  unfold below
  rw [List.mapM_cons]
  cases visit schema instances p with
  | error e => rfl
  | ok first => cases parts.mapM (visit schema instances) <;> rfl

theorem itemReferences_eq (element : FieldType) (items : List Value) (path : String) (index : Nat) :
    itemReferences schema instances element items path index =
      below schema instances (items.mapIdx fun n item =>
        { type := element, value := item, path := s!"{path}[{index + n}]" }) := by
  induction items generalizing index with
  | nil => rw [itemReferences]; rfl
  | cons item rest ih =>
      rw [itemReferences, List.mapIdx_cons, below_cons, ih]
      simp only [Nat.add_zero, Nat.add_assoc, Nat.add_comm 1]
      rfl

theorem entryReferences_eq (inner : FieldType) (entries : List (Value × Value)) (path : String) :
    entryReferences schema instances inner entries path =
      below schema instances (entries.map fun (key, value) =>
        { type := inner, value, path := s!"{path}[{key.inspect}]" }) := by
  induction entries with
  | nil => rw [entryReferences]; rfl
  | cons entry rest ih =>
      rw [entryReferences, List.map_cons, below_cons, ih]
      rfl

/-- Fields that are not set contribute nothing. -/
theorem fieldReferences_eq {search : Field → Except Error (List ResolvedReference)}
    {part : Field → Option Place} (unset : ∀ field, part field = none → search field = .ok [])
    (set : ∀ field q, part field = some q → search field = visit schema instances q)
    (fields : List Field) : (do return (← fields.mapM search).flatten) =
      below schema instances (fields.filterMap part) := by
  induction fields with
  | nil => rfl
  | cons field rest ih =>
      rw [List.mapM_cons]
      cases here : part field with
      | none =>
          rw [unset field here, List.filterMap_cons_none here, ← ih]
          cases rest.mapM search <;> rfl
      | some q =>
          rw [set field q here, List.filterMap_cons_some here, below_cons, ← ih]
          cases visit schema instances q with
          | error e => rfl
          | ok first => cases rest.mapM search <;> rfl

/-- **A visit is what it does at the place itself and then the visits of the parts.** -/
theorem visit_eq (p : Place) : p.visit schema instances = do
    return (← p.own schema instances) ++ (← below schema instances (p.parts schema)) := by
  obtain ⟨type, value, path⟩ := p
  unfold visit own parts
  dsimp only
  rw [references.eq_def]
  cases type.unwrap with
  | scalar kind => cases kind <;> cases value <;> rfl
  | optional inner => cases value <;> rfl
  | list element =>
      cases value with
      | list items =>
          dsimp only
          rw [itemReferences_eq]
          simp only [Nat.zero_add]
          exact (bind_pure _).symm
      | _ => rfl
  | map key inner =>
      cases value with
      | map entries =>
          dsimp only
          rw [entryReferences_eq]
          exact (bind_pure _).symm
      | _ => rfl
  | reference target =>
      cases value with
      | ref r =>
          dsimp only
          cases resolveTyped schema instances r target <;> rfl
      | _ => rfl
  | embedded target =>
      cases value with
      | record actual fields =>
          dsimp only
          cases schema.get target with
          | error e => rfl
          | ok declared =>
              cases found : schema.get actual with
              | error e => rfl
              | ok entity =>
                  rw [Registry.get_eq_ok_iff.mp found]
                  by_cases other : entity.id ≠ declared.id ∧ (!entity.descendsFrom declared.id) = true
                  · change (if _ then _ else _) = (if _ then _ else _) >>= _
                    rw [if_pos other, if_pos other]
                    rfl
                  · change (if _ then _ else _) = (if _ then _ else _) >>= _
                    rw [if_neg other, if_neg other]
                    refine (fieldReferences_eq ?_ ?_ entity.fields).trans (bind_pure _).symm
                    · intro field unset
                      split
                      · rfl
                      · rename_i v set
                        rw [set] at unset
                        cases unset
                    · intro field q set
                      split
                      · rename_i unset
                        rw [unset] at set
                        cases set
                      · rename_i v here
                        rw [here] at set
                        cases set
                        rfl
      | _ => rfl

/-- A visit succeeds when the place passes its own test and the visits of its parts succeed. -/
theorem visit_eq_ok_iff {found : List ResolvedReference} : p.visit schema instances = .ok found ↔
    ∃ here below, p.own schema instances = .ok here ∧
      List.Forall₂ (fun q f => q.visit schema instances = .ok f) (p.parts schema) below ∧
      found = here ++ below.flatten := by
  rw [visit_eq, bind_eq_ok_iff]
  constructor
  · rintro ⟨here, tested, run⟩
    obtain ⟨rest, visited, last⟩ := bind_eq_ok_iff.mp run
    obtain ⟨below, each, flat⟩ := bind_eq_ok_iff.mp visited
    cases last
    cases flat
    exact ⟨here, below, tested, mapM_eq_ok_iff.mp each, rfl⟩
  · rintro ⟨here, below, tested, each, rfl⟩
    refine ⟨here, tested, bind_eq_ok_iff.mpr ⟨below.flatten, ?_, rfl⟩⟩
    exact bind_eq_ok_iff.mpr ⟨below, mapM_eq_ok_iff.mpr each, rfl⟩

/-- A visit succeeds when the test at the place does and the visits of all parts do. -/
theorem exists_visit_iff : (∃ found, p.visit schema instances = .ok found) ↔
    (∃ here, p.own schema instances = .ok here) ∧
      ∀ q ∈ p.parts schema, ∃ found, q.visit schema instances = .ok found := by
  rw [← exists_mapM_eq_ok_iff]
  constructor
  · rintro ⟨found, run⟩
    obtain ⟨here, below, tested, visited, _⟩ := visit_eq_ok_iff.mp run
    exact ⟨⟨here, tested⟩, below, mapM_eq_ok_iff.mpr visited⟩
  · rintro ⟨⟨here, tested⟩, below, visited⟩
    exact ⟨_, visit_eq_ok_iff.mpr ⟨here, below, tested, mapM_eq_ok_iff.mp visited, rfl⟩⟩

/-- A visit fails at the place itself or in a part. -/
theorem visit_error {e : Error} (failed : p.visit schema instances = .error e) :
    p.own schema instances = .error e ∨
      ∃ q ∈ p.parts schema, q.visit schema instances = .error e := by
  rw [visit_eq] at failed
  rcases bind_eq_error_iff.mp failed with own | ⟨_, _, failed⟩
  · exact .inl own
  · rcases bind_eq_error_iff.mp failed with inside | ⟨_, _, done⟩
    · rcases bind_eq_error_iff.mp inside with part | ⟨_, _, done⟩
      · exact .inr (exists_of_mapM_eq_error part)
      · cases done
    · cases done

/-- A place that passes its own test yields nothing, or the reference that it is. -/
theorem own_ok {here : List ResolvedReference} (tested : p.own schema instances = .ok here) :
    (here = [] ∧ ∀ r, p.value ≠ .ref r) ∨ ∃ target r ordinal, p.type.unwrap = .reference target ∧
      p.value = .ref r ∧ resolveTyped schema instances r target = .ok ordinal ∧
      here = [{ path := p.path, target, id := r.id, ordinal }] := by
  obtain ⟨type, value, path⟩ := p
  unfold own at tested
  dsimp only at tested
  split at tested
  case h_6 target r fits =>
    obtain ⟨ordinal, resolved, last⟩ := bind_eq_ok_iff.mp tested
    cases last
    exact .inr ⟨target, r, ordinal, fits, rfl, inContext_eq_ok_iff.mp resolved, rfl⟩
  case h_7 =>
    obtain ⟨declared, _, tested⟩ := bind_eq_ok_iff.mp tested
    obtain ⟨entity, _, tested⟩ := bind_eq_ok_iff.mp tested
    split at tested <;> cases tested
    exact .inl ⟨rfl, nofun⟩
  case h_8 => cases tested
  all_goals
    cases tested
    exact .inl ⟨rfl, nofun⟩

/-- A place fails its own test for a type that is not declared, for its shape, or for the reference
that it is. -/
theorem own_error {e : Error} (failed : p.own schema instances = .error e) :
    (∃ name, e = { cause := .unknownEntityType name }) ∨
    (∃ expected found, e =
      Error.within { cause := .valueMismatch expected found } { field := some p.path }) ∨
    ∃ target r inner, p.type.unwrap = .reference target ∧ p.value = .ref r ∧
      resolveTyped schema instances r target = .error inner ∧
      e = inner.within { field := some p.path } := by
  have mismatch : ∀ {α : Type} {expected found : String} {e : Error},
      inContext { field := some p.path } (fail (α := α) (.valueMismatch expected found)) =
        .error e → ∃ expected found, e =
          Error.within { cause := .valueMismatch expected found } { field := some p.path } := by
    intro α expected found e failed
    obtain ⟨inner, same, rfl⟩ := inContext_eq_error_iff.mp failed
    cases same
    exact ⟨expected, found, rfl⟩
  obtain ⟨type, value, path⟩ := p
  unfold own at failed
  dsimp only at failed mismatch
  split at failed
  case h_6 target r fits =>
    rcases bind_eq_error_iff.mp failed with refused | ⟨_, _, done⟩
    · obtain ⟨inner, inside, same⟩ := inContext_eq_error_iff.mp refused
      exact .inr (.inr ⟨target, r, inner, fits, rfl, inside, same⟩)
    · cases done
  case h_7 =>
    rcases bind_eq_error_iff.mp failed with unknown | ⟨declared, _, failed⟩
    · exact .inl (Registry.get_error unknown)
    · rcases bind_eq_error_iff.mp failed with unknown | ⟨entity, _, failed⟩
      · exact .inl (Registry.get_error unknown)
      · split at failed
        · rcases bind_eq_error_iff.mp failed with other | ⟨_, _, done⟩
          · exact .inr (.inl (mismatch other))
          · cases done
        · cases failed
  case h_8 => exact .inr (.inl (mismatch failed))
  all_goals cases failed

end Place

/-- The references of a record are those of a value of its type. -/
theorem recordReferences_eq {schema : Registry} {instances : InstanceRegistry} (record : Record) :
    recordReferences schema instances record =
      references schema instances (.embedded record.type) record.toValue "" := by
  have unwrapped : (FieldType.embedded record.type).unwrap = .embedded record.type := rfl
  unfold recordReferences Record.toValue
  rw [references, unwrapped]
  dsimp only
  cases schema.get record.type with
  | error e => rfl
  | ok entity =>
      change _ = if entity.id ≠ entity.id ∧ (!entity.descendsFrom entity.id) = true then _ else _
      rw [if_neg (fun differs => differs.1 rfl)]
      change (entity.fields.mapM _ >>= fun found => Except.ok found.flatten) = _
      congr 2
      funext field
      simp only [fieldPath, if_true, Record.get?]
      split <;> split <;> simp_all

end EntityForge.Resolution
