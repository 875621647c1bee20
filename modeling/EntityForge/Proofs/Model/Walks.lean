import EntityForge.Model.Dependencies
import EntityForge.Proofs.Model.Graphs
import EntityForge.Proofs.Schema.Validation

/-!
The walk over embedded types, against the relation that it walks.

`Walk.Edge` leads from a declared type to the types that the walk looks at, and `Walk.Follows` to
those that it goes on to. A walk that ends has its visited types laid out along `Follows`, and has
visited exactly what `Follows` reaches (`visit_ok`); a walk that fails on a validated registry has
met a cycle of `Edge` that its root reaches, and names it (`visit_error`). A walk that ends would
end so in every later registry, too (`visit_extends`). All three follow the two functions through
their recursive calls by `Walk.visit.mutual_induct`.
-/

namespace EntityForge.Walk

open Relation

variable {walk : Walk} {schema : Registry}

/-! ### The relation of a walk -/

/-- The walk looks at `b` from `a`. -/
def Edge (walk : Walk) (schema : Registry) (a b : EntityId) : Prop :=
  ∃ entity, schema.entity? a = some entity ∧ b ∈ walk.targets entity

/-- The walk goes on to a declared type. -/
def Takes (walk : Walk) (schema : Registry) (type : EntityId) : Prop :=
  ∃ entity, schema.entity? type = some entity ∧ walk.follows entity = true

/-- The walk goes on from `a` to `b`. -/
def Follows (walk : Walk) (schema : Registry) (a b : EntityId) : Prop :=
  walk.Edge schema a b ∧ walk.Takes schema b

theorem mem_embedded_iff {type : FieldType} {target : EntityId} :
    target ∈ walk.embedded type ↔ type.Stores (walk = .all) target := by
  induction type with
  | scalar _ => exact ⟨fun mem => (List.not_mem_nil mem).elim, fun stores => by cases stores⟩
  | reference _ => exact ⟨fun mem => (List.not_mem_nil mem).elim, fun stores => by cases stores⟩
  | embedded other =>
      rw [embedded, List.mem_singleton]
      constructor
      · rintro rfl
        exact .embedded target
      · intro stores
        cases stores
        rfl
  | optional inner ih =>
      rw [embedded, ih]
      exact ⟨.optional, fun stores => by cases stores; assumption⟩
  | list element ih =>
      rw [embedded, ih]
      exact ⟨.list, fun stores => by cases stores; assumption⟩
  | map key value _ ih =>
      rw [embedded]
      by_cases all : walk = .all
      · rw [if_pos all, ih]
        exact ⟨.map (decide_eq_true all), fun stores => by cases stores; assumption⟩
      · rw [if_neg all]
        constructor
        · intro mem
          exact (List.not_mem_nil mem).elim
        · intro stores
          cases stores with
          | map maps _ => exact absurd (of_decide_eq_true maps) all

theorem edge_iff {a b : EntityId} :
    walk.Edge schema a b ↔ schema.Stores (walk = .all) a b := by
  simp only [Edge, Registry.Stores, targets, List.mem_flatMap, mem_embedded_iff]

/-- What a walk looks at, the registry embeds. -/
theorem edge_le_embeds : walk.Edge schema ≤ schema.Embeds :=
  fun _ _ edge => (edge_iff.mp edge).embeds

/-- In a validated registry a walk only looks at declared types. -/
theorem declared_of_edge (valid : schema.validate = .ok ()) {a b : EntityId}
    (edge : walk.Edge schema a b) : ∃ entity, schema.entity? b = some entity :=
  Registry.declared_of_embeds valid (edge_le_embeds a b edge)

/-- The walk over all types goes on along every embedding. -/
theorem follows_all (valid : schema.validate = .ok ()) : all.Follows schema = schema.Embeds := by
  funext a b
  refine propext ⟨fun follows => edge_le_embeds a b follows.1, fun embeds => ?_⟩
  obtain ⟨entity, found⟩ := Registry.declared_of_embeds valid embeds
  exact ⟨edge_iff.mpr embeds, entity, found, rfl⟩

/-- The walk over models goes on along the embeddings of models. -/
theorem follows_models : models.Follows schema = schema.EmbedsModel := by
  funext a b
  simp only [Follows, edge_iff, Takes, Registry.EmbedsModel, follows, beq_iff_eq]
  rfl

/-! ### One call of the walk -/

section Calls

variable {path done types : List EntityId} {type target : EntityId} {entity : EntityType}

theorem visit_eq (found : schema.entity? type = some entity) (fresh : type ∉ path) :
    walk.visit schema path done type fresh =
      walk.visitAll schema (path ++ [type]) done (walk.targets entity) >>= fun below =>
        .ok (below ++ [type]) := by
  rw [visit]
  split
  · rename_i e unknown
    rw [Registry.get_eq_ok_iff.mpr found] at unknown
    cases unknown
  · rename_i entity' found'
    rw [Registry.get_eq_ok_iff, found] at found'
    cases found'
    rfl

theorem visit_unknown {e : Error} (unknown : schema.get type = .error e) (fresh : type ∉ path) :
    walk.visit schema path done type fresh = .error e := by
  rw [visit]
  split
  · rename_i e' unknown'
    rw [unknown] at unknown'
    cases unknown'
    rfl
  · rename_i entity found
    rw [unknown] at found
    cases found

theorem visitAll_onPath (onPath : target ∈ path) :
    walk.visitAll schema path done (target :: types) =
      fail (.cyclicDependency (cycle schema path target)) := by
  rw [visitAll, dif_pos onPath]

theorem visitAll_done (offPath : target ∉ path) (visited : target ∈ done) :
    walk.visitAll schema path done (target :: types) = walk.visitAll schema path done types := by
  rw [visitAll, dif_neg offPath, if_pos visited]

theorem visitAll_new (offPath : target ∉ path) (new : target ∉ done)
    (found : schema.entity? target = some entity) :
    walk.visitAll schema path done (target :: types) =
      if walk.follows entity then
        walk.visit schema path done target offPath >>= fun done =>
          walk.visitAll schema path done types
      else walk.visitAll schema path done types := by
  rw [visitAll, dif_neg offPath, if_neg new, Registry.get_eq_ok_iff.mpr found]
  rfl

end Calls

/-! ### Walks that end -/

/-- The visited types while a path is walked: each once, laid out, and none of the path. -/
structure Visited (walk : Walk) (schema : Registry) (path done : List EntityId) : Prop where
  nodup : done.Nodup
  laidOut : LaidOut (walk.Follows schema) done
  offPath : ∀ type ∈ done, type ∉ path

/-- Visited types continued by types that the walk reaches from some sources. -/
def Adds (walk : Walk) (schema : Registry) (source : EntityId → Prop)
    (done done' : List EntityId) : Prop :=
  ∃ new, done' = done ++ new ∧
    ∀ type ∈ new, ∃ s, source s ∧ ReflTransGen (walk.Follows schema) s type

theorem Adds.refl {source : EntityId → Prop} {done : List EntityId} :
    walk.Adds schema source done done :=
  ⟨[], by simp, by simp⟩

theorem Adds.trans {source : EntityId → Prop} {a b c : List EntityId}
    (first : walk.Adds schema source a b) (second : walk.Adds schema source b c) :
    walk.Adds schema source a c := by
  obtain ⟨new, rfl, reached⟩ := first
  obtain ⟨later, rfl, reached'⟩ := second
  refine ⟨new ++ later, by rw [List.append_assoc], fun type mem => ?_⟩
  rcases List.mem_append.mp mem with old | late
  · exact reached type old
  · exact reached' type late

theorem Adds.mono {source source' : EntityId → Prop} {done done' : List EntityId}
    (adds : walk.Adds schema source done done')
    (sub : ∀ s, source s → ∃ s', source' s' ∧ ReflTransGen (walk.Follows schema) s' s) :
    walk.Adds schema source' done done' := by
  obtain ⟨new, split, reached⟩ := adds
  refine ⟨new, split, fun type mem => ?_⟩
  obtain ⟨s, isSource, reach⟩ := reached type mem
  obtain ⟨s', isSource', reach'⟩ := sub s isSource
  exact ⟨s', isSource', reach'.trans reach⟩

theorem Adds.subset {source : EntityId → Prop} {done done' : List EntityId}
    (adds : walk.Adds schema source done done') {type : EntityId} (mem : type ∈ done) :
    type ∈ done' := by
  obtain ⟨new, rfl, _⟩ := adds
  exact List.mem_append_left new mem

/-- What is reached from the later ones of several types is reached from all of them. -/
theorem Adds.of_rest {target : EntityId} {rest done done' : List EntityId}
    (adds : walk.Adds schema (fun s => s ∈ rest ∧ walk.Takes schema s) done done') :
    walk.Adds schema (fun s => s ∈ target :: rest ∧ walk.Takes schema s) done done' :=
  adds.mono fun s isRest => ⟨s, ⟨List.mem_cons_of_mem target isRest.1, isRest.2⟩, .refl⟩

/-- What a visit that ends has done. -/
def VisitEnds (walk : Walk) (schema : Registry) (path done : List EntityId) (type : EntityId)
    (fresh : type ∉ path) : Prop :=
  ∀ done', walk.visit schema path done type fresh = .ok done' → type ∉ done →
    walk.Visited schema path done → ∃ below, done' = below ++ [type] ∧
      walk.Visited schema path done' ∧ walk.Adds schema (· = type) done done'

/-- What visits of several types have done when they end: all that the walk takes are visited. -/
def VisitsEnd (walk : Walk) (schema : Registry) (path done types : List EntityId) : Prop :=
  ∀ done', walk.visitAll schema path done types = .ok done' →
    (∀ type ∈ types, ∃ entity, schema.entity? type = some entity) →
    walk.Visited schema path done →
      walk.Visited schema path done' ∧
        walk.Adds schema (fun s => s ∈ types ∧ walk.Takes schema s) done done' ∧
        ∀ type ∈ types, walk.Takes schema type → type ∈ done'

theorem Visited.concat {path done : List EntityId} {type : EntityId}
    (visited : walk.Visited schema (path ++ [type]) done) (fresh : type ∉ path)
    (complete : ∀ target, walk.Follows schema type target → target ∈ done) :
    walk.Visited schema path (done ++ [type]) := by
  have new : type ∉ done := fun mem =>
    visited.offPath type mem (List.mem_append_right path List.mem_cons_self)
  refine ⟨?_, laidOut_concat_iff.mpr ⟨visited.laidOut, complete⟩, ?_⟩
  · exact List.nodup_append.mpr ⟨visited.nodup, List.nodup_singleton type, fun a mem b last same =>
      new (List.mem_singleton.mp last ▸ same ▸ mem)⟩
  · intro t mem
    rcases List.mem_append.mp mem with old | last
    · exact fun onPath => visited.offPath t old (List.mem_append_left [type] onPath)
    · rw [List.mem_singleton.mp last]
      exact fresh

theorem Visited.extend {path done : List EntityId} {type : EntityId}
    (visited : walk.Visited schema path done) (new : type ∉ done) :
    walk.Visited schema (path ++ [type]) done := by
  refine ⟨visited.nodup, visited.laidOut, fun t mem onPath => ?_⟩
  rcases List.mem_append.mp onPath with old | last
  · exact visited.offPath t mem old
  · exact new (List.mem_singleton.mp last ▸ mem)

/-- Through all recursive calls, the visited types stay laid out, and none is missed. -/
theorem visit_ends (valid : schema.validate = .ok ()) :
    (∀ path done type fresh, walk.VisitEnds schema path done type fresh) ∧
      ∀ path done types, walk.VisitsEnd schema path done types := by
  refine visit.mutual_induct walk schema (walk.VisitEnds schema) (walk.VisitsEnd schema)
    ?unknown ?visit ?nil ?onPath ?done ?new
  case unknown =>
    intro path done type fresh e unknown done' run
    rw [visit_unknown unknown] at run
    cases run
  case visit =>
    intro path done type fresh entity found _ ih done' run new visited
    have found := Registry.get_eq_ok_iff.mp found
    rw [visit_eq found] at run
    obtain ⟨below, walked, same⟩ := bind_eq_ok_iff.mp run
    cases same
    have declared : ∀ t ∈ walk.targets entity, ∃ e, schema.entity? t = some e :=
      fun t mem => declared_of_edge valid ⟨entity, found, mem⟩
    obtain ⟨visited', adds, complete⟩ := ih below walked declared (visited.extend new)
    refine ⟨below, rfl, visited'.concat fresh ?_, ?_⟩
    · rintro target ⟨⟨entity', found', mem⟩, takes⟩
      rw [found] at found'
      cases found'
      exact complete target mem takes
    · have reached : walk.Adds schema (· = type) done below := adds.mono fun s isTarget =>
        ⟨type, rfl, .single ⟨⟨entity, found, isTarget.1⟩, isTarget.2⟩⟩
      exact reached.trans ⟨[type], rfl, fun t last =>
        ⟨type, rfl, by rw [List.mem_singleton.mp last]⟩⟩
  case nil =>
    intro path done done' run _ visited
    rw [visitAll] at run
    cases run
    exact ⟨visited, .refl, fun _ mem => (List.not_mem_nil mem).elim⟩
  case onPath =>
    intro path done target rest onPath done' run
    rw [visitAll_onPath onPath] at run
    cases run
  case done =>
    intro path done target rest offPath old ih done' run declared visited
    rw [visitAll_done offPath old] at run
    obtain ⟨visited', adds, complete⟩ := ih done' run (List.forall_mem_cons.mp declared).2 visited
    exact ⟨visited', adds.of_rest,
      List.forall_mem_cons.mpr ⟨fun _ => adds.subset old, complete⟩⟩
  case new =>
    intro path done target rest offPath new ihRest ihTarget done' run declared visited
    obtain ⟨⟨entity, found⟩, declared⟩ := List.forall_mem_cons.mp declared
    rw [visitAll_new offPath new found] at run
    split at run
    · rename_i follows
      obtain ⟨middle, walked, run⟩ := bind_eq_ok_iff.mp run
      obtain ⟨below, same, visitedTarget, addsTarget⟩ := ihTarget middle walked new visited
      obtain ⟨visited', adds, complete⟩ := ihRest middle done' run declared visitedTarget
      refine ⟨visited', ?_, List.forall_mem_cons.mpr ⟨fun _ => adds.subset ?_, complete⟩⟩
      · refine Adds.trans (addsTarget.mono fun s isTarget => ?_) adds.of_rest
        exact ⟨target, ⟨List.mem_cons_self, entity, found, follows⟩, by rw [isTarget]⟩
      · rw [same]
        exact List.mem_append_right below List.mem_cons_self
    · rename_i ignored
      obtain ⟨visited', adds, complete⟩ := ihRest done done' run declared visited
      refine ⟨visited', adds.of_rest, List.forall_mem_cons.mpr ⟨?_, complete⟩⟩
      rintro ⟨entity', found', follows⟩
      rw [found] at found'
      cases found'
      exact absurd follows ignored

/-! ### Walks that fail -/

/-- A path as a walk from `root` keeps it. -/
structure Path (walk : Walk) (schema : Registry) (root : EntityId) (path : List EntityId) :
    Prop where
  nodup : path.Nodup
  chain : path.IsChain (walk.Edge schema)
  reached : ∀ type ∈ path, ReflTransGen (walk.Edge schema) root type

/-- A type that the walk looks at from the end of a path. -/
structure Ahead (walk : Walk) (schema : Registry) (root : EntityId) (path : List EntityId)
    (type : EntityId) : Prop where
  declared : ∃ entity, schema.entity? type = some entity
  chain : (path ++ [type]).IsChain (walk.Edge schema)
  reached : ReflTransGen (walk.Edge schema) root type

theorem Path.concat {root type : EntityId} {path : List EntityId}
    (isPath : walk.Path schema root path) (ahead : walk.Ahead schema root path type)
    (fresh : type ∉ path) : walk.Path schema root (path ++ [type]) := by
  refine ⟨?_, ahead.chain, ?_⟩
  · exact List.nodup_append.mpr ⟨isPath.nodup, List.nodup_singleton type, fun a mem b last same =>
      fresh (List.mem_singleton.mp last ▸ same ▸ mem)⟩
  · intro t mem
    rcases List.mem_append.mp mem with old | last
    · exact isPath.reached t old
    · rw [List.mem_singleton.mp last]
      exact ahead.reached

/-- The error names a cycle that the root reaches. -/
def MeetsCycle (walk : Walk) (schema : Registry) (root : EntityId) (e : Error) : Prop :=
  ∃ types, e = { cause := .cyclicDependency (types.map schema.nameOf) } ∧
    IsCycle (walk.Edge schema) types ∧ ∀ type ∈ types, ReflTransGen (walk.Edge schema) root type

/-- A visit fails on a cycle. -/
def VisitFails (walk : Walk) (schema : Registry) (root : EntityId) (path done : List EntityId)
    (type : EntityId) (fresh : type ∉ path) : Prop :=
  ∀ e, walk.visit schema path done type fresh = .error e → walk.Path schema root path →
    walk.Ahead schema root path type → walk.MeetsCycle schema root e

/-- Visits of several types fail on a cycle. -/
def VisitsFail (walk : Walk) (schema : Registry) (root : EntityId)
    (path done types : List EntityId) : Prop :=
  ∀ e, walk.visitAll schema path done types = .error e → walk.Path schema root path →
    (∀ type ∈ types, walk.Ahead schema root path type) → walk.MeetsCycle schema root e

/-- The path of an entry that is met again closes a cycle. -/
theorem meetsCycle_of_onPath {root target : EntityId} {path : List EntityId}
    (isPath : walk.Path schema root path) (ahead : walk.Ahead schema root path target)
    (onPath : target ∈ path) :
    walk.MeetsCycle schema root { cause := .cyclicDependency (cycle schema path target) } := by
  refine ⟨path.dropWhile (· != target) ++ [target], rfl,
    isCycle_of_mem onPath isPath.nodup ahead.chain, fun type mem => ?_⟩
  rcases List.mem_append.mp mem with old | last
  · exact isPath.reached type (List.dropWhile_subset _ old)
  · rw [List.mem_singleton.mp last]
    exact ahead.reached

/-- Through all recursive calls, the path is a chain of distinct types, so the only failure is a
cycle. -/
theorem visit_fails (valid : schema.validate = .ok ()) (root : EntityId) :
    (∀ path done type fresh, walk.VisitFails schema root path done type fresh) ∧
      ∀ path done types, walk.VisitsFail schema root path done types := by
  refine visit.mutual_induct walk schema (walk.VisitFails schema root)
    (walk.VisitsFail schema root) ?unknown ?visit ?nil ?onPath ?done ?new
  case unknown =>
    intro path done type fresh e' unknown e _ _ ahead
    obtain ⟨entity, found⟩ := ahead.declared
    rw [Registry.get_eq_ok_iff.mpr found] at unknown
    cases unknown
  case visit =>
    intro path done type fresh entity found _ ih e run isPath ahead
    have found := Registry.get_eq_ok_iff.mp found
    rw [visit_eq found] at run
    rcases bind_eq_error_iff.mp run with run | ⟨_, _, done⟩
    · refine ih e run (isPath.concat ahead fresh) fun target mem => ?_
      have edge : walk.Edge schema type target := ⟨entity, found, mem⟩
      refine ⟨declared_of_edge valid edge, ?_, ahead.reached.tail edge⟩
      rw [List.isChain_append]
      refine ⟨ahead.chain, .singleton target, fun a last b first => ?_⟩
      rw [List.getLast?_concat] at last
      cases last
      cases first
      exact edge
    · cases done
  case nil =>
    intro path done e run
    rw [visitAll] at run
    cases run
  case onPath =>
    intro path done target rest onPath e run isPath ahead
    rw [visitAll_onPath onPath] at run
    cases run
    exact meetsCycle_of_onPath isPath (ahead target List.mem_cons_self) onPath
  case done =>
    intro path done target rest offPath old ih e run isPath ahead
    rw [visitAll_done offPath old] at run
    exact ih e run isPath (List.forall_mem_cons.mp ahead).2
  case new =>
    intro path done target rest offPath new ihRest ihTarget e run isPath ahead
    obtain ⟨aheadTarget, ahead⟩ := List.forall_mem_cons.mp ahead
    obtain ⟨entity, found⟩ := aheadTarget.declared
    rw [visitAll_new offPath new found] at run
    split at run
    · rcases bind_eq_error_iff.mp run with run | ⟨middle, _, run⟩
      · exact ihTarget e run isPath aheadTarget
      · exact ihRest middle e run isPath ahead
    · exact ihRest done e run isPath ahead

/-! ### Walks in a later registry -/

/-- Through all recursive calls, a walk that ends goes the same way in a later registry: what it has
looked at is declared, so it stays as it was. -/
theorem visit_extends {schema' : Registry} (ext : schema.Extends schema') :
    (∀ path done type fresh done', walk.visit schema path done type fresh = .ok done' →
      walk.visit schema' path done type fresh = .ok done') ∧
    ∀ path done types done', walk.visitAll schema path done types = .ok done' →
      walk.visitAll schema' path done types = .ok done' := by
  refine visit.mutual_induct walk schema
    (fun path done type fresh => ∀ done', walk.visit schema path done type fresh = .ok done' →
      walk.visit schema' path done type fresh = .ok done')
    (fun path done types => ∀ done', walk.visitAll schema path done types = .ok done' →
      walk.visitAll schema' path done types = .ok done')
    ?unknown ?visit ?nil ?onPath ?done ?new
  case unknown =>
    intro path done type fresh e unknown done' run
    rw [visit_unknown unknown] at run
    cases run
  case visit =>
    intro path done type fresh entity found _ ih done' run
    have found := Registry.get_eq_ok_iff.mp found
    rw [visit_eq found] at run
    rw [visit_eq (ext.entity? type entity found)]
    obtain ⟨below, walked, same⟩ := bind_eq_ok_iff.mp run
    exact bind_eq_ok_iff.mpr ⟨below, ih below walked, same⟩
  case nil =>
    intro path done done' run
    rw [visitAll] at run ⊢
    exact run
  case onPath =>
    intro path done target rest onPath done' run
    rw [visitAll_onPath onPath] at run
    cases run
  case done =>
    intro path done target rest offPath old ih done' run
    rw [visitAll_done offPath old] at run ⊢
    exact ih done' run
  case new =>
    intro path done target rest offPath new ihRest ihTarget done' run
    cases found : schema.get target with
    | error e =>
        rw [visitAll, dif_neg offPath, if_neg new, found] at run
        cases run
    | ok entity =>
        have found := Registry.get_eq_ok_iff.mp found
        rw [visitAll_new offPath new found] at run
        rw [visitAll_new offPath new (ext.entity? target entity found)]
        split at run
        · rename_i follows
          obtain ⟨middle, walked, run⟩ := bind_eq_ok_iff.mp run
          rw [if_pos follows]
          exact bind_eq_ok_iff.mpr ⟨middle, ihTarget middle walked, ihRest middle done' run⟩
        · rename_i ignored
          rw [if_neg ignored]
          exact ihRest done done' run

/-! ### Whole walks -/

variable {root : EntityId}

/-- A walk that ends has visited exactly what it goes on to from its root, each type once, after all
that it goes on to from there. -/
theorem visit_ok (valid : schema.validate = .ok ()) {fresh : root ∉ []} {order : List EntityId}
    (run : walk.visit schema [] [] root fresh = .ok order) :
    ∃ below, order = below ++ [root] ∧ order.Nodup ∧ LaidOut (walk.Follows schema) order ∧
      ∀ type, type ∈ order ↔ ReflTransGen (walk.Follows schema) root type := by
  obtain ⟨below, split, visited, new, same, reached⟩ :=
    (visit_ends valid).1 [] [] root fresh order run List.not_mem_nil
      ⟨List.nodup_nil, laidOut_nil, fun _ mem => (List.not_mem_nil mem).elim⟩
  refine ⟨below, split, visited.nodup, visited.laidOut, fun type => ⟨fun mem => ?_, fun reach => ?_⟩⟩
  · rw [same] at mem
    obtain ⟨_, rfl, reach⟩ := reached type mem
    exact reach
  · have start : root ∈ order := split ▸ List.mem_append_right below List.mem_cons_self
    exact visited.laidOut.mem_of_reflTransGen start reach

/-- A walk from a declared type fails only on a cycle that the type reaches. -/
theorem visit_error (valid : schema.validate = .ok ()) {entity : EntityType}
    (declared : schema.entity? root = some entity) {fresh : root ∉ []} {e : Error}
    (run : walk.visit schema [] [] root fresh = .error e) : walk.MeetsCycle schema root e :=
  (visit_fails valid root).1 [] [] root fresh e run
    ⟨List.nodup_nil, .nil, fun _ mem => (List.not_mem_nil mem).elim⟩
    ⟨⟨entity, declared⟩, .singleton root, .refl⟩

end EntityForge.Walk
