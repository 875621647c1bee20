import EntityForge.Schema.Registry

/-!
What an entity type depends on: the types it refers to, the types it embeds, and an order in which
the embedded ones can be laid out.

A walk visits a type after everything it embeds, so the visited types come out dependencies first,
and it fails when it meets a type of its own path again. The path holds known types without
repetition, so a walk is never deeper than there are types. References do not extend a walk: what a
reference names is looked up, not stored in place.
-/

namespace EntityForge

/-- The dependencies of an entity type; the type itself is never among them. -/
structure Dependencies where
  /-- The targets of its direct references, ascending. -/
  direct : List EntityId
  /-- The models it embeds in turn, ascending. -/
  transitive : List EntityId
  /-- Every type it embeds in turn, ascending. -/
  reachable : List EntityId
  /-- The embedded types, each after all types that it embeds itself. -/
  layoutOrder : List EntityId
deriving DecidableEq, Repr

/-- Which embedded types a walk goes to. -/
inductive Walk where
  /-- Models, alone or in lists and optional values. -/
  | models
  /-- Every type, also in the values of maps. -/
  | all
deriving DecidableEq, Repr

namespace Walk

/-- The walk goes on to a type. -/
def follows : Walk → EntityType → Bool
  | models, entity => entity.kind == .model
  | all, _ => true

/-- The types that a field type embeds, as far as the walk looks. -/
def embedded (walk : Walk) : FieldType → List EntityId
  | .embedded target => [target]
  | .optional inner | .list inner => walk.embedded inner
  | .map _ value => if walk = all then walk.embedded value else []
  | .scalar _ | .reference _ => []

/-- The types that an entity type embeds directly, in field order. -/
def targets (walk : Walk) (entity : EntityType) : List EntityId :=
  entity.fields.flatMap fun field => walk.embedded field.type

/-- The number of known types that are not on a path. -/
def unvisited (schema : Registry) (path : List EntityId) : Nat :=
  (List.range schema.size).countP fun i => ⟨i⟩ ∉ path

/-- A longer path leaves no more types. -/
theorem countP_notMem_append_le (path : List EntityId) (type : EntityId) (indices : List Nat) :
    indices.countP (fun i => (⟨i⟩ : EntityId) ∉ path ++ [type]) ≤
      indices.countP (fun i => (⟨i⟩ : EntityId) ∉ path) :=
  List.countP_mono_left fun i _ outside => by
    simp only [List.mem_append, not_or, decide_eq_true_eq] at outside ⊢
    exact outside.1

/-- Going on to a known type that is not on the path leaves fewer types. -/
theorem unvisited_lt {schema : Registry} {path : List EntityId} {type : EntityId}
    (known : type.index < schema.size) (fresh : type ∉ path) :
    unvisited schema (path ++ [type]) < unvisited schema path := by
  obtain ⟨before, after, split⟩ := List.append_of_mem (List.mem_range.2 known)
  have left := countP_notMem_append_le path type before
  have right := countP_notMem_append_le path type after
  have here : decide ((⟨type.index⟩ : EntityId) ∉ path ++ [type]) = false := by simp
  have there : decide ((⟨type.index⟩ : EntityId) ∉ path) = true := by simp [fresh]
  rw [unvisited, unvisited, split, List.countP_append, List.countP_append, List.countP_cons,
    List.countP_cons, here, there]
  simp only [Bool.false_eq_true, if_false, if_true]
  omega

/-- A declared type is a known one. -/
theorem index_lt_of_get {schema : Registry} {type : EntityId} {entity : EntityType}
    (found : schema.get type = .ok entity) : type.index < schema.size := by
  unfold Registry.get Registry.slot? at found
  split at found
  · exact (List.getElem?_eq_some_iff.1 ‹_›).1
  · cases found
  · cases found

/-- A declared type is listed. -/
theorem mem_entities_of_get {schema : Registry} {type : EntityId} {entity : EntityType}
    (found : schema.get type = .ok entity) : entity ∈ schema.entities := by
  unfold Registry.get Registry.slot? at found
  split at found
  · cases found
    exact List.mem_filterMap.2 ⟨_, List.mem_of_getElem? ‹_›, rfl⟩
  · cases found
  · cases found

/-- How many steps a walk from the end of a path can take at most: for each type that is not on the
path, one visit and the embeddings of all declared types. -/
def stepsFrom (walk : Walk) (schema : Registry) (path : List EntityId) : Nat :=
  unvisited schema path * ((schema.entities.flatMap walk.targets).length + 2)

/-- A visit has steps left for everything that its type embeds. -/
theorem stepsFrom_lt (walk : Walk) {schema : Registry} {path : List EntityId} {type : EntityId}
    {entity : EntityType} (found : schema.get type = .ok entity) (fresh : type ∉ path) :
    walk.stepsFrom schema (path ++ [type]) + (walk.targets entity).length + 1 <
      walk.stepsFrom schema path := by
  have fewer := unvisited_lt (index_lt_of_get found) fresh
  have listed : (walk.targets entity).length ≤ (schema.entities.flatMap walk.targets).length := by
    obtain ⟨before, after, split⟩ := List.append_of_mem (mem_entities_of_get found)
    rw [split, List.flatMap_append, List.flatMap_cons, List.length_append, List.length_append]
    omega
  have enough := Nat.mul_le_mul_right ((schema.entities.flatMap walk.targets).length + 2) fewer
  rw [Nat.succ_mul] at enough
  unfold stepsFrom
  omega

/-- The cycle that closes when `target` is met again at the end of `path`. -/
def cycle (schema : Registry) (path : List EntityId) (target : EntityId) : List String :=
  (path.dropWhile (· != target) ++ [target]).map schema.nameOf

mutual

/-- Visits a type that is not on the path: everything it embeds, then the type itself. `done` holds
the visited types in the order of their visits, and the result is `done` continued. -/
def visit (walk : Walk) (schema : Registry) (path : List EntityId) (done : List EntityId)
    (type : EntityId) (fresh : type ∉ path) : Except Error (List EntityId) :=
  match found : schema.get type with
  | .error e => .error e
  | .ok entity => do
    have := walk.stepsFrom_lt found fresh
    let done ← walk.visitAll schema (path ++ [type]) done (walk.targets entity)
    return done ++ [type]
termination_by walk.stepsFrom schema path

/-- Visits the given types in order, except those already visited. -/
def visitAll (walk : Walk) (schema : Registry) (path : List EntityId) (done : List EntityId)
    (types : List EntityId) : Except Error (List EntityId) :=
  match types with
  | [] => .ok done
  | target :: rest =>
    if onPath : target ∈ path then fail (.cyclicDependency (cycle schema path target))
    else if target ∈ done then walk.visitAll schema path done rest
    else do
      let entity ← schema.get target
      let done ← if walk.follows entity then walk.visit schema path done target onPath else .ok done
      walk.visitAll schema path done rest
termination_by walk.stepsFrom schema path + types.length + 1

end

/-- The types that a walk from `type` visits, dependencies first, without `type` itself. -/
def below (walk : Walk) (schema : Registry) (type : EntityId) : Except Error (List EntityId) := do
  let visited ← walk.visit schema [] [] type (by simp)
  return visited.filter (· != type)

end Walk

namespace Dependencies

/-- The dependencies of a declared type. -/
def ofType (schema : Registry) (type : EntityId) : Except Error Dependencies := do
  let entity ← schema.get type
  let layoutOrder ← Walk.all.below schema type
  let models ← Walk.models.below schema type
  return {
    direct := EntityId.sorted (entity.fields.filterMap fun field => field.type.directReference?)
    transitive := EntityId.sorted models
    reachable := EntityId.sorted layoutOrder
    layoutOrder }

end Dependencies

end EntityForge
