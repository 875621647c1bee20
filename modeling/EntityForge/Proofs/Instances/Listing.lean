import EntityForge.Proofs.Instances.Addresses
import EntityForge.Proofs.Schema.Fields

/-!
What a visit lists, and how it fails. A visit that succeeds passes over no value, since every value
below it has the shape of its type (`Place.at?_value`), and it has one entry for each reference, in the
order of the positions (`Place.exists_lists`). A visit that fails knows the path to the value at fault
at most, so the type and the id that an instance adds to the error are never lost.
-/

namespace EntityForge

/-- The values directly inside a value: the items of a list, the values of a map, and what a record
sets of the effective fields of its type, in the order of the fields. -/
def Value.parts (schema : Registry) : Value → List Value
  | .list items => items
  | .map entries => entries.map Prod.snd
  | .record actual fields =>
    match schema.entity? actual with
    | some entity => entity.fields.filterMap fun field => SortedMap.find? Ord.compare field.name fields
    | none => []
  | _ => []

/-- The value at a position, whatever types are declared. -/
def Value.at? (schema : Registry) (value : Value) : List Nat → Option Value
  | [] => some value
  | n :: rest => (value.parts schema)[n]?.bind (at? schema · rest)

namespace Resolution

namespace Place

variable {schema : Registry} {instances : InstanceRegistry} {p q : Place}
  {found here : List ResolvedReference}

/-! ### Successful visits -/

/-- The parts of a place that passes its own test are all that its value has inside. -/
theorem parts_value (tested : p.own schema instances = .ok here) :
    (p.parts schema).map value = p.value.parts schema := by
  obtain ⟨type, value, path⟩ := p
  unfold own at tested
  unfold parts Value.parts
  dsimp only at tested ⊢
  split at tested
  · cases type.unwrap <;> rfl
  · rw [‹type.unwrap = _›]
    rfl
  · rw [‹type.unwrap = _›]
    rfl
  · rw [‹type.unwrap = _›]
    refine List.ext_getElem? fun n => ?_
    simp [Function.comp_def]
  · rw [‹type.unwrap = _›]
    simp [Function.comp_def]
  · rw [‹type.unwrap = _›]
    rfl
  · rw [‹type.unwrap = _›]
    dsimp only
    cases schema.entity? _ <;> simp [List.map_filterMap, Function.comp_def]
  · cases tested

/-- **A visit that succeeds passes over no value**: every value below is that of a place. -/
theorem at?_value (run : p.visit schema instances = .ok found) (position : List Nat) :
    (p.at? schema position).map value = p.value.at? schema position := by
  induction position generalizing p found with
  | nil => rfl
  | cons n rest ih =>
      obtain ⟨_, below, tested, each, _⟩ := visit_eq_ok_iff.mp run
      rw [at?, Value.at?, ← parts_value tested, List.getElem?_map]
      cases part : (p.parts schema)[n]? with
      | none => rfl
      | some q =>
          obtain ⟨_, _, visited⟩ := exists_getElem?_of_forall₂ each part
          exact ih visited

/-! ### The entries of a visit -/

/-- An entry for the reference at a place: it has the path of the place and the type that is declared
there, and the reference has the tag of that type and the id of the instance at the ordinal. -/
def IsEntry (schema : Registry) (instances : InstanceRegistry) (q : Place)
    (f : ResolvedReference) : Prop :=
  ∃ r, q.value = .ref r ∧ q.type.unwrap = .reference f.target ∧ f.path = q.path ∧ f.id = r.id ∧
    r.Names schema instances ⟨f.target, f.ordinal⟩

/-- Entries for the references at the places that are reached, one for each and in the order of their
positions. -/
structure Lists (schema : Registry) (instances : InstanceRegistry)
    (reached : List Nat → Place → Prop) (positions : List (List Nat))
    (found : List ResolvedReference) : Prop where
  ascending : positions.Pairwise (· < ·)
  mem_iff : ∀ position, position ∈ positions ↔ ∃ q r, reached position q ∧ q.value = .ref r
  entries : List.Forall₂ (fun position f => ∃ q, reached position q ∧ q.IsEntry schema instances f)
    positions found

section Lists

variable {reached others : List Nat → Place → Prop} {positions later : List (List Nat)}
  {rest : List ResolvedReference}

theorem Lists.none (nothing : ∀ position q r, reached position q → q.value ≠ .ref r) :
    Lists schema instances reached [] [] where
  ascending := .nil
  mem_iff position := by
    simp only [List.not_mem_nil, false_iff]
    rintro ⟨q, r, at_, value⟩
    exact nothing position q r at_ value
  entries := .nil

/-- What is listed of a place is listed below the part that the place is. -/
theorem Lists.part (lists : Lists schema instances reached positions found) (n : Nat) :
    Lists schema instances (fun position q => ∃ rest, position = n :: rest ∧ reached rest q)
      (positions.map (n :: ·)) found where
  ascending := List.pairwise_map.mpr (lists.ascending.imp List.cons_lt_cons_self.mpr)
  mem_iff position := by
    rw [List.mem_map]
    constructor
    · rintro ⟨rest, mem, rfl⟩
      obtain ⟨q, r, at_, value⟩ := (lists.mem_iff rest).mp mem
      exact ⟨q, r, ⟨rest, rfl, at_⟩, value⟩
    · rintro ⟨q, r, ⟨rest, rfl, at_⟩, value⟩
      exact ⟨rest, (lists.mem_iff rest).mpr ⟨q, r, at_, value⟩, rfl⟩
  entries := List.forall₂_map_left_iff.mpr <| lists.entries.imp
    fun rest _ ⟨q, at_, entry⟩ => ⟨q, ⟨rest, rfl, at_⟩, entry⟩

theorem Lists.append (first : Lists schema instances reached positions found)
    (second : Lists schema instances others later rest)
    (before : ∀ a b p q, reached a p → others b q → a < b) :
    Lists schema instances (fun position q => reached position q ∨ others position q)
      (positions ++ later) (found ++ rest) where
  ascending := by
    refine List.pairwise_append.mpr ⟨first.ascending, second.ascending, fun a mem b mem' => ?_⟩
    obtain ⟨p, _, at_, _⟩ := (first.mem_iff a).mp mem
    obtain ⟨q, _, at_', _⟩ := (second.mem_iff b).mp mem'
    exact before a b p q at_ at_'
  mem_iff position := by
    rw [List.mem_append, first.mem_iff, second.mem_iff]
    constructor
    · rintro (⟨q, r, at_, value⟩ | ⟨q, r, at_, value⟩)
      · exact ⟨q, r, .inl at_, value⟩
      · exact ⟨q, r, .inr at_, value⟩
    · rintro ⟨q, r, at_ | at_, value⟩
      · exact .inl ⟨q, r, at_, value⟩
      · exact .inr ⟨q, r, at_, value⟩
  entries := List.rel_append
    (first.entries.imp fun _ _ ⟨q, at_, entry⟩ => ⟨q, .inl at_, entry⟩)
    (second.entries.imp fun _ _ ⟨q, at_, entry⟩ => ⟨q, .inr at_, entry⟩)

end Lists

/-- The place is at a position below parts, the first of which has the number `n`. -/
def Below (schema : Registry) (n : Nat) (parts : List Place) (position : List Nat) (q : Place) :
    Prop :=
  ∃ k p rest, parts[k]? = some p ∧ position = (n + k) :: rest ∧ p.at? schema rest = some q

theorem below_cons_iff {n : Nat} {parts : List Place} {position : List Nat} :
    Below schema n (p :: parts) position q ↔
      (∃ rest, position = n :: rest ∧ p.at? schema rest = some q) ∨
        Below schema (n + 1) parts position q := by
  constructor
  · rintro ⟨k, p', rest, part, rfl, at_⟩
    cases k with
    | zero =>
        cases part
        exact .inl ⟨rest, rfl, at_⟩
    | succ k => exact .inr ⟨k, p', rest, part, by rw [Nat.add_right_comm, Nat.add_assoc], at_⟩
  · rintro (⟨rest, rfl, at_⟩ | ⟨k, p', rest, part, rfl, at_⟩)
    · exact ⟨0, p, rest, rfl, rfl, at_⟩
    · exact ⟨k + 1, p', rest, part, by rw [Nat.add_right_comm, Nat.add_assoc], at_⟩

theorem at?_eq_some_iff {position : List Nat} : p.at? schema position = some q ↔
    (position = [] ∧ q = p) ∨ Below schema 0 (p.parts schema) position q := by
  cases position with
  | nil => simp [at?, Below, eq_comm]
  | cons n rest =>
      rw [at?, Option.bind_eq_some_iff]
      simp only [reduceCtorEq, false_and, false_or, Below, Nat.zero_add, List.cons.injEq]
      constructor
      · rintro ⟨part, here, at_⟩
        exact ⟨n, part, rest, here, ⟨rfl, rfl⟩, at_⟩
      · rintro ⟨_, part, _, here, ⟨rfl, rfl⟩, at_⟩
        exact ⟨part, here, at_⟩

/-- At the place itself a visit lists the reference that stands there, if one does. -/
theorem exists_lists_own (consistent : schema.Consistent) (filled : instances.Filled)
    (tested : p.own schema instances = .ok here) : ∃ positions,
      Lists schema instances (fun position q => position = [] ∧ q = p) positions here := by
  rcases own_ok tested with ⟨rfl, other⟩ | ⟨target, r, ordinal, type, value, resolved, rfl⟩
  · refine ⟨[], Lists.none ?_⟩
    rintro _ _ r ⟨_, rfl⟩
    exact other r
  · have named := ((resolveTyped_eq_ok_iff consistent filled).mp resolved).2
    refine ⟨[[]], List.pairwise_singleton _ _, fun position => by simp [value], .cons ?_ .nil⟩
    exact ⟨p, ⟨rfl, rfl⟩, r, value, type, rfl, rfl, named⟩

/-- The lists of parts make up a list of what is below them. -/
theorem exists_lists_below {parts : List Place} {founds : List (List ResolvedReference)}
    (lists : List.Forall₂ (fun p found => ∃ positions, Lists schema instances
      (fun position q => p.at? schema position = some q) positions found) parts founds) (n : Nat) :
    ∃ positions, Lists schema instances (Below schema n parts) positions founds.flatten := by
  induction lists generalizing n with
  | nil =>
      refine ⟨[], Lists.none ?_⟩
      rintro _ _ _ ⟨_, _, _, none, _⟩
      cases none
  | cons first _ ih =>
      obtain ⟨positions, first⟩ := first
      obtain ⟨later, others⟩ := ih (n + 1)
      have joined := (first.part n).append others ?_
      · simp only [← below_cons_iff] at joined
        exact ⟨_, joined⟩
      · rintro _ _ _ _ ⟨_, rfl, _⟩ ⟨k, _, _, _, rfl, _⟩
        exact List.Lex.rel (by omega)

/-- **A visit that succeeds lists the references below its place**, each once and in the order of the
positions. -/
theorem exists_lists (consistent : schema.Consistent) (filled : instances.Filled) (p : Place) :
    ∀ found, p.visit schema instances = .ok found →
      ∃ positions, Lists schema instances (fun position q => p.at? schema position = some q)
        positions found := by
  induction p using Place.induction schema with
  | step p ih =>
      intro found run
      obtain ⟨here, below, tested, each, rfl⟩ := visit_eq_ok_iff.mp run
      have lists := ((List.forall₂_and_left _ _).mpr ⟨ih, each⟩).imp
        fun q f ⟨lists, visited⟩ => lists f visited
      obtain ⟨positions, own⟩ := exists_lists_own consistent filled tested
      obtain ⟨later, others⟩ := exists_lists_below lists 0
      have joined := own.append others ?_
      · simp only [← at?_eq_some_iff] at joined
        exact ⟨_, joined⟩
      · rintro _ _ _ _ ⟨rfl, _⟩ ⟨_, _, _, _, rfl, _⟩
        exact List.Lex.nil

/-! ### Failing visits -/

/-- An error knows the path to the value at fault at most. -/
def KnowsPath (e : Error) : Prop :=
  e.context = none ∨ ∃ path, e.context = some { field := some path }

theorem context_of_resolveTyped {r : Reference} {target : EntityId} {e : Error}
    (failed : resolveTyped schema instances r target = .error e) : e.context = none := by
  rcases bind_eq_error_iff.mp failed with unknown | ⟨entity, _, failed⟩
  · obtain ⟨name, rfl⟩ := Registry.get_error unknown
    rfl
  · split at failed
    · cases failed
      rfl
    · rcases bind_eq_error_iff.mp failed with refused | ⟨_, _, done⟩
      · unfold resolve at refused
        repeat' split at refused
        all_goals cases refused
        all_goals rfl
      · cases done

/-- A visit that fails knows the path to the value at fault at most. -/
theorem knowsPath_visit (p : Place) :
    ∀ e, p.visit schema instances = .error e → KnowsPath e := by
  induction p using Place.induction schema with
  | step p ih =>
      intro e failed
      rcases visit_error failed with own | ⟨q, mem, part⟩
      · rcases own_error own with ⟨_, rfl⟩ | ⟨_, _, rfl⟩ | ⟨target, r, inner, _, _, refused, rfl⟩
        · exact .inl rfl
        · exact .inr ⟨p.path, rfl⟩
        · exact .inr ⟨p.path, by rw [Error.within, context_of_resolveTyped refused]⟩
      · exact ih q mem e part

end Place

/-! ### Instances -/

variable {schema : Registry} {instances : InstanceRegistry} {i : Instance} {entity : EntityType}

/-- An instance of a declared type is visited as a place, and an error says which instance it is. -/
theorem validateInstance_eq (declared : schema.entity? i.type = some entity) :
    validateInstance schema instances i =
      inContext { entity := some entity.name, instanceId := some i.id }
        ((Place.ofInstance i).visit schema instances) := by
  unfold validateInstance
  rw [Registry.get_eq_ok_iff.mpr declared, recordReferences_eq]
  rfl

theorem validateInstance_of_undeclared (undeclared : schema.entity? i.type = none) :
    ∃ name, validateInstance schema instances i = fail (.unknownEntityType name) := by
  unfold validateInstance
  cases found : schema.get i.type with
  | ok entity =>
      rw [Registry.get_eq_ok_iff.mp found] at undeclared
      cases undeclared
  | error e =>
      obtain ⟨name, rfl⟩ := Registry.get_error found
      exact ⟨name, rfl⟩

/-- **The visit of an instance lists every reference, once and in order.** If it succeeds, every value
under an effective field is that of a place, and there is one entry for each that is a reference, with
the type declared there and the instance that the reference names. Positions are counted by the
effective fields of a record's own type, whose names differ, by the items of a list and by the entries
of a map, and entries stand in the lexicographic order of positions. If the visit fails, the error has
the name of the instance's type and its id; only a type that is not declared has no name to add. -/
theorem validateInstance_exact (reachable : schema.Reachable) (filled : instances.Filled)
    (i : Instance) :
    (∀ found, validateInstance schema instances i = .ok found →
      (∀ position, ((Place.ofInstance i).at? schema position).map Place.value =
        i.record.toValue.at? schema position) ∧
      ∃ positions, Place.Lists schema instances
        (fun position q => (Place.ofInstance i).at? schema position = some q) positions found) ∧
    schema.FieldsDiffer ∧
    (∀ entity, schema.entity? i.type = some entity →
      ∀ e, validateInstance schema instances i = .error e →
        ∃ field, e.context =
          some { entity := some entity.name, instanceId := some i.id, field }) ∧
    (schema.entity? i.type = none →
      ∃ name, validateInstance schema instances i = fail (.unknownEntityType name)) := by
  refine ⟨fun found run => ?_, reachable.fieldsDiffer, fun entity declared e failed => ?_,
    validateInstance_of_undeclared⟩
  · cases declared : schema.entity? i.type with
    | none =>
        obtain ⟨name, failed⟩ : ∃ name, validateInstance schema instances i = _ :=
          validateInstance_of_undeclared declared
        rw [failed] at run
        cases run
    | some entity =>
        rw [validateInstance_eq declared] at run
        have visited := inContext_eq_ok_iff.mp run
        exact ⟨Place.at?_value visited,
          Place.exists_lists reachable.consistent filled _ found visited⟩
  · rw [validateInstance_eq declared] at failed
    obtain ⟨inner, visited, rfl⟩ := inContext_eq_error_iff.mp failed
    rcases Place.knowsPath_visit _ inner visited with bare | ⟨path, known⟩
    · exact ⟨none, by rw [Error.within, bare]⟩
    · exact ⟨some path, by rw [Error.within, known]; rfl⟩

/-- A hero with levels, one of which is of a type below the declared one. -/
def ada : Instance where
  id := "ada"
  ordinal := 0
  record := {
    type := ⟨3⟩
    fields := [
      ("first", .ref ⟨"skill_data", "fire"⟩),
      ("learned", .list [.ref ⟨"skill_data", "ice"⟩, .nil, .ref ⟨"skill_data", "fire"⟩]),
      ("levels", .list [.record ⟨2⟩ [
        ("minions", .map [(.string "imp", .ref ⟨"skill_data", "fire"⟩)]),
        ("skill", .ref ⟨"skill_data", "ice"⟩)]])] }

/-- Two skills, and a hero who refers to them in fields, lists, maps and records. -/
def squad : List EntityForge.Call := [
  .schema (.declare { name := "SkillData" }),
  .schema (.declare {
    name := "LevelData"
    fields := [{ name := "skill", type := .reference ⟨0⟩ }] }),
  .schema (.declare {
    name := "BossLevel"
    parent := some ⟨1⟩
    fields := [{ name := "minions", type := .map (.scalar .string) (.reference ⟨0⟩) }] }),
  .schema (.declare {
    name := "HeroData"
    fields := [
      { name := "first", type := .reference ⟨0⟩ },
      { name := "learned", type := .list (.optional (.reference ⟨0⟩)) },
      { name := "levels", type := .list (.embedded ⟨1⟩) }] }),
  .register "ice" { type := ⟨0⟩ },
  .register "fire" { type := ⟨0⟩ },
  .register ada.id ada.record,
  .close]

theorem validateInstance_exact_ada :
    (History.run squad).instances.instance? ada.key = some ada ∧
      ∃ positions, Place.Lists (History.run squad).schema (History.run squad).instances
        (fun position q =>
          (Place.ofInstance ada).at? (History.run squad).schema position = some q) positions [
        { path := "first", target := ⟨0⟩, id := "fire", ordinal := 1 },
        { path := "learned[0]", target := ⟨0⟩, id := "ice", ordinal := 0 },
        { path := "learned[2]", target := ⟨0⟩, id := "fire", ordinal := 1 },
        { path := "levels[0].skill", target := ⟨0⟩, id := "ice", ordinal := 0 },
        { path := "levels[0].minions[\"imp\"]", target := ⟨0⟩, id := "fire", ordinal := 1 }] := by
  have visits := (validateInstance_exact (History.run_sound squad).reachable
    (History.filled_run squad) ada).1
  exact ⟨by decide +kernel, (visits _ (by decide +kernel)).2⟩

/-- An error about an instance of a type that the registry does not declare names neither. -/
theorem validateInstance_stranger :
    (Registry.run [.declare { name := "SkillData" }]).validate = .ok () ∧
      (History.run squad).instances.Filled ∧ (History.run squad).instances.isSealed = true ∧
      (History.run squad).instances.instance? ada.key = some ada ∧
      validateInstance (Registry.run [.declare { name := "SkillData" }])
        (History.run squad).instances ada =
          .error { cause := .unknownEntityType "#3", context := none } := by
  refine ⟨by decide +kernel, History.filled_run squad, ?_⟩
  decide +kernel

end Resolution

end EntityForge
