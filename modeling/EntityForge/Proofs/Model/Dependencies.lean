import Mathlib
import EntityForge.Proofs.Model.Memos
import EntityForge.Proofs.Model.Walks

/-!
The dependencies of a type, in terms of what the registry embeds.

On a validated registry the walk over all types ends exactly when no cycle of embeddings is reached,
and the walk over models, which follows fewer embeddings, ends whenever that one does
(`below_models_ok`). So a request for dependencies either names a cycle or gives the types that are
embedded in turn, laid out dependencies first.
-/

namespace EntityForge

open Relation

namespace Registry

/-- A type reaches a cycle of embeddings. -/
def ReachesCycle (r : Registry) (type : EntityId) : Prop :=
  ∃ t, ReflTransGen r.Embeds type t ∧ TransGen r.Embeds t t

/-- A path names a cycle of embeddings that a type reaches. -/
structure NamesCycle (r : Registry) (type : EntityId) (path : List String) : Prop where
  two_le_length : 2 ≤ path.length
  closed : path.head? = path.getLast?
  nodup : path.dropLast.Nodup
  embeds : ∃ types : List EntityId, path = types.map r.nameOf ∧ types.IsChain r.Embeds ∧
    ∀ t ∈ types, ReflTransGen r.Embeds type t

end Registry

variable {schema : Registry} {type : EntityId} {entity : EntityType}

namespace Walk

variable {walk : Walk} {order : List EntityId}

/-! ### Walks without their root -/

theorem below_eq_ok_iff : walk.below schema type = .ok order ↔
    ∃ visited, walk.visit schema [] [] type List.not_mem_nil = .ok visited ∧
      order = visited.filter (· != type) := by
  unfold below
  rw [bind_eq_ok_iff]
  simp only [pure, Except.pure, Except.ok.injEq, eq_comm]

theorem below_eq_error_iff {e : Error} : walk.below schema type = .error e ↔
    walk.visit schema [] [] type List.not_mem_nil = .error e := by
  unfold below
  rw [bind_eq_error_iff]
  simp [pure, Except.pure]

/-- The types below a root are those that the walk goes on to from it, laid out, and none of them
is the root. -/
theorem below_ok (valid : schema.validate = .ok ()) (run : walk.below schema type = .ok order) :
    order.Nodup ∧ LaidOut (walk.Follows schema) order ∧
      ∀ t, t ∈ order ↔ t ≠ type ∧ TransGen (walk.Follows schema) type t := by
  obtain ⟨visited, walked, same⟩ := below_eq_ok_iff.mp run
  obtain ⟨below, rfl, nodup, laid, mem⟩ := visit_ok valid walked
  obtain ⟨nodupBelow, _, apart⟩ := List.nodup_append.mp nodup
  have unrooted : order = below := by
    rw [same, List.filter_append, List.filter_eq_self.mpr]
    · simp
    · intro t inside
      simpa using apart t inside type List.mem_cons_self
  rw [unrooted]
  refine ⟨nodupBelow, (laidOut_concat_iff.mp laid).1, fun t => ⟨fun inside => ?_, ?_⟩⟩
  · have other : t ≠ type := apart t inside type List.mem_cons_self
    have reach := (mem t).mp (List.mem_append_left [type] inside)
    exact ⟨other, (reflTransGen_iff_eq_or_transGen.mp reach).resolve_left other⟩
  · rintro ⟨other, reach⟩
    rcases List.mem_append.mp ((mem t).mpr reach.to_reflTransGen) with inside | last
    · exact inside
    · exact absurd (List.mem_singleton.mp last) other

/-! ### Cycles -/

/-- A cycle of any walk is one of embeddings. -/
theorem MeetsCycle.reachesCycle {e : Error} (meets : walk.MeetsCycle schema type e) :
    schema.ReachesCycle type := by
  obtain ⟨types, _, isCycle, reached⟩ := meets
  obtain ⟨t, mem, back⟩ := isCycle.exists_transGen
  exact ⟨t, ReflTransGen.mono edge_le_embeds _ _ (reached t mem),
    TransGen.mono edge_le_embeds _ _ back⟩

/-- In a reachable registry the names of a cycle tell its types apart. -/
theorem MeetsCycle.namesCycle (reachable : schema.Reachable) (valid : schema.validate = .ok ())
    (declared : schema.entity? type = some entity) {e : Error}
    (meets : walk.MeetsCycle schema type e) :
    ∃ path, e = { cause := .cyclicDependency path } ∧ schema.NamesCycle type path := by
  obtain ⟨types, rfl, isCycle, reached⟩ := meets
  have known : ∀ t ∈ types, t.index < schema.size := by
    intro t mem
    rcases (reached t mem).cases_tail with rfl | ⟨_, _, edge⟩
    · exact Registry.index_lt_of_entity? declared
    · obtain ⟨_, found⟩ := declared_of_edge valid edge
      exact Registry.index_lt_of_entity? found
  refine ⟨_, rfl, ?_, ?_, ?_, types, rfl, ?_, ?_⟩
  · simpa using isCycle.two_le_length
  · rw [List.head?_map, List.getLast?_map, isCycle.closed]
  · exact isCycle.nodup_map_dropLast fun a memA b memB =>
      reachable.consistent.nameOf_inj (known a memA) (known b memB)
  · exact isCycle.chain.imp edge_le_embeds
  · exact fun t mem => ReflTransGen.mono edge_le_embeds _ _ (reached t mem)

/-- A walk from a declared type that fails has met a cycle. -/
theorem below_error (valid : schema.validate = .ok ())
    (declared : schema.entity? type = some entity) {e : Error}
    (failed : walk.below schema type = .error e) : walk.MeetsCycle schema type e :=
  visit_error valid declared (below_eq_error_iff.mp failed)

theorem declared_of_below (ended : walk.below schema type = .ok order) :
    ∃ entity, schema.entity? type = some entity := by
  obtain ⟨visited, walked, _⟩ := below_eq_ok_iff.mp ended
  cases found : schema.get type with
  | ok entity => exact ⟨entity, Registry.get_eq_ok_iff.mp found⟩
  | error e =>
      rw [visit_unknown found] at walked
      cases walked

/-- The walk over all types does not end if a cycle is reached. -/
theorem not_reachesCycle_of_below (valid : schema.validate = .ok ())
    (ended : all.below schema type = .ok order) : ¬ schema.ReachesCycle type := by
  rintro ⟨t, reach, back⟩
  obtain ⟨visited, walked, _⟩ := below_eq_ok_iff.mp ended
  obtain ⟨_, _, _, laid, mem⟩ := visit_ok valid walked
  rw [follows_all valid] at laid mem
  exact laid.not_transGen_self ((mem t).mpr reach) back

/-- The walk over models ends if the walk over all types does: a cycle that it met would be one of
embeddings. -/
theorem below_models_ok (valid : schema.validate = .ok ())
    (declared : schema.entity? type = some entity) (ended : all.below schema type = .ok order) :
    ∃ values, models.below schema type = .ok values := by
  cases run : models.below schema type with
  | ok values => exact ⟨values, rfl⟩
  | error e =>
      have meets := (below_error valid declared run).reachesCycle
      exact absurd meets (not_reachesCycle_of_below valid ended)

/-- A walk that ends goes the same way in a later registry. -/
theorem below_extends {schema' : Registry} (ext : schema.Extends schema')
    (ended : walk.below schema type = .ok order) : walk.below schema' type = .ok order := by
  obtain ⟨visited, walked, same⟩ := below_eq_ok_iff.mp ended
  exact below_eq_ok_iff.mpr ⟨visited, (visit_extends ext).1 [] [] type _ visited walked, same⟩

end Walk

namespace Dependencies

variable {graph : Memo Dependencies} {d : Dependencies}

/-! ### Dependencies of a type -/

theorem ofType_eq_ok_iff : ofType schema type = .ok d ↔
    ∃ entity layout values, schema.entity? type = some entity ∧
      Walk.all.below schema type = .ok layout ∧ Walk.models.below schema type = .ok values ∧
      d = {
        direct := EntityId.sorted (entity.fields.filterMap fun field => field.type.directReference?)
        transitive := EntityId.sorted values
        reachable := EntityId.sorted layout
        layoutOrder := layout } := by
  unfold ofType
  simp only [bind_eq_ok_iff, Registry.get_eq_ok_iff, pure, Except.pure, Except.ok.injEq]
  constructor
  · rintro ⟨entity, found, layout, structural, values, models, same⟩
    exact ⟨entity, layout, values, found, structural, models, same.symm⟩
  · rintro ⟨entity, layout, values, found, structural, models, same⟩
    exact ⟨entity, found, layout, structural, values, models, same.symm⟩

/-- Dependencies are found when the walk over all types ends. -/
theorem ofType_ok_of_below (valid : schema.validate = .ok ())
    (declared : schema.entity? type = some entity) {order : List EntityId}
    (ended : Walk.all.below schema type = .ok order) : ∃ d, ofType schema type = .ok d := by
  obtain ⟨values, models⟩ := Walk.below_models_ok valid declared ended
  exact ⟨_, ofType_eq_ok_iff.mpr ⟨entity, order, values, declared, ended, models, rfl⟩⟩

/-- The first failure of a walk is that of the request. -/
theorem ofType_error_of_below (declared : schema.entity? type = some entity) {e : Error}
    (failed : Walk.all.below schema type = .error e) : ofType schema type = .error e := by
  unfold ofType
  rw [Registry.get_eq_ok_iff.mpr declared]
  exact bind_eq_error_iff.mpr (.inr ⟨entity, rfl, bind_eq_error_iff.mpr (.inl failed)⟩)

/-- A request either ends without a cycle or names one. -/
theorem ofType_outcome (reachable : schema.Reachable) (valid : schema.validate = .ok ())
    (declared : schema.entity? type = some entity) :
    (¬ schema.ReachesCycle type ∧ ∃ d, ofType schema type = .ok d) ∨
      (schema.ReachesCycle type ∧ ∃ path, ofType schema type = fail (.cyclicDependency path) ∧
        schema.NamesCycle type path) := by
  cases run : Walk.all.below schema type with
  | ok order =>
      exact .inl ⟨Walk.not_reachesCycle_of_below valid run, ofType_ok_of_below valid declared run⟩
  | error e =>
      have meets := Walk.below_error valid declared run
      obtain ⟨path, rfl, names⟩ := meets.namesCycle reachable valid declared
      exact .inr ⟨meets.reachesCycle, path, ofType_error_of_below declared run, names⟩

/-- Dependencies stay what they are while the registry grows. -/
theorem ofType_extends {schema' : Registry} (ext : schema.Extends schema')
    (computed : ofType schema type = .ok d) : ofType schema' type = .ok d := by
  obtain ⟨entity, layout, values, found, structural, models, same⟩ := ofType_eq_ok_iff.mp computed
  exact ofType_eq_ok_iff.mpr ⟨entity, layout, values, ext.entity? type entity found,
    Walk.below_extends ext structural, Walk.below_extends ext models, same⟩

/-! ### Requests -/

/-- **Cycles are found exactly.** A request for what is not kept fails if and only if the type
reaches a cycle of embeddings; the error then names one and the graph stays as it was. -/
theorem request_cyclic_iff (reachable : schema.Reachable) (valid : schema.validate = .ok ())
    (declared : schema.entity? type = some entity) (missing : graph.get? type = none) :
    ((∃ path, (graph.request (ofType schema) type).2 = fail (.cyclicDependency path)) ↔
        schema.ReachesCycle type) ∧
      (∀ path, (graph.request (ofType schema) type).2 = fail (.cyclicDependency path) →
        (graph.request (ofType schema) type).1 = graph ∧ schema.NamesCycle type path) ∧
      (¬ schema.ReachesCycle type → ∃ d, graph.request (ofType schema) type =
        ({ answers := (type, d) :: graph.answers }, .ok d)) := by
  rcases ofType_outcome reachable valid declared with
    ⟨acyclic, d, computed⟩ | ⟨cyclic, path, failed, names⟩
  · rw [Memo.request_ok missing computed]
    refine ⟨⟨?_, fun cyclic => absurd cyclic acyclic⟩, ?_, fun _ => ⟨d, rfl⟩⟩
    · rintro ⟨path, same⟩
      cases same
    · intro path same
      cases same
  · rw [Memo.request_error missing failed]
    refine ⟨⟨fun _ => cyclic, fun _ => ⟨path, rfl⟩⟩, ?_, fun acyclic => absurd cyclic acyclic⟩
    intro path' same
    cases same
    exact ⟨rfl, names⟩

/-- Two types that embed each other. -/
def mutualCalls : List Registry.Call := [
  .reserve "Y",
  .declare { name := "X", fields := [{ name := "y", type := .embedded ⟨0⟩ }] },
  .declare { name := "Y", fields := [{ name := "x", type := .list (.embedded ⟨1⟩) }] }]

theorem request_cyclic_mutual : ∃ path,
    (({} : Memo Dependencies).request (ofType (Registry.run mutualCalls)) ⟨1⟩).2 =
      fail (.cyclicDependency path) := by
  have forth : (Registry.run mutualCalls).Embeds ⟨1⟩ ⟨0⟩ :=
    ⟨_, rfl, _, List.mem_singleton.mpr rfl, .embedded ⟨0⟩⟩
  have back : (Registry.run mutualCalls).Embeds ⟨0⟩ ⟨1⟩ :=
    ⟨_, rfl, _, List.mem_singleton.mpr rfl, .list (.embedded ⟨1⟩)⟩
  exact (request_cyclic_iff ⟨mutualCalls, rfl⟩ (by decide +kernel) rfl rfl).1.mpr
    ⟨⟨1⟩, .refl, .tail (.single forth) back⟩

/-- A graph that was empty and has only been used with a registry since, or with the registries that
it has grown from. -/
inductive UsedWith : Registry → Memo Dependencies → Prop where
  | empty (schema : Registry) : UsedWith schema {}
  | request {schema : Registry} {graph : Memo Dependencies} (type : EntityId) :
      UsedWith schema graph → UsedWith schema (graph.request (ofType schema) type).1
  | requestAll {schema : Registry} {graph : Memo Dependencies} (types : List EntityId) :
      UsedWith schema graph → UsedWith schema (graph.requestAll (ofType schema) types).1
  | grow {schema schema' : Registry} {graph : Memo Dependencies} :
      UsedWith schema graph → schema.Extends schema' → UsedWith schema' graph

/-- Calls on the registry, failing ones included, only make it grow. -/
theorem UsedWith.after (used : UsedWith schema graph) (reachable : schema.Reachable)
    (call : Registry.Call) : UsedWith (schema.after call) graph :=
  .grow used (reachable.extends_after call)

/-- Kept dependencies never go stale. -/
theorem UsedWith.faithful (used : UsedWith schema graph) : graph.Faithful (ofType schema) := by
  induction used with
  | empty schema => exact Memo.faithful_empty
  | request type _ ih => exact ih.request type
  | requestAll types _ ih => exact ih.requestAll types
  | grow _ ext ih => exact ih.mono fun _ _ computed => ofType_extends ext computed

/-- **Layout orders are topological.** What a request gives is what the type embeds in turn, each
type once, after all that it embeds itself. -/
theorem request_layoutOrder (used : UsedWith schema graph) (valid : schema.validate = .ok ())
    (answered : (graph.request (ofType schema) type).2 = .ok d) :
    (∀ t, t ∈ d.reachable ↔ t ≠ type ∧ TransGen schema.Embeds type t) ∧
      d.layoutOrder.Nodup ∧ (∀ t, t ∈ d.layoutOrder ↔ t ∈ d.reachable) ∧
      LaidOut schema.Embeds d.layoutOrder := by
  rw [used.faithful.request_eq] at answered
  obtain ⟨_, layout, _, _, structural, _, rfl⟩ := ofType_eq_ok_iff.mp answered
  obtain ⟨nodup, laid, mem⟩ := Walk.below_ok valid structural
  rw [Walk.follows_all valid] at laid mem
  refine ⟨fun t => ?_, nodup, fun t => EntityId.mem_sorted.symm, laid⟩
  exact EntityId.mem_sorted.trans (mem t)

/-- A type that embeds another in two ways, of which one leads over models only. -/
def diamond : Registry := Registry.run [
  .declare { name := "A", root := some .model },
  .declare { name := "B", fields := [{ name := "a", type := .embedded ⟨0⟩ }] },
  .declare {
    name := "C"
    root := some .model
    fields := [{ name := "a", type := .optional (.embedded ⟨0⟩) }] },
  .declare {
    name := "D"
    fields := [
      { name := "b", type := .map (.scalar .string) (.embedded ⟨1⟩) },
      { name := "c", type := .list (.embedded ⟨2⟩) }] }]

theorem below_diamond : Walk.all.below diamond ⟨3⟩ = .ok [⟨0⟩, ⟨1⟩, ⟨2⟩] := by cbv

theorem request_layoutOrder_diamond :
    ∃ d, (({} : Memo Dependencies).request (ofType diamond) ⟨3⟩).2 = .ok d ∧
      d.layoutOrder.Nodup ∧ LaidOut diamond.Embeds d.layoutOrder := by
  have valid : diamond.validate = .ok () := by decide +kernel
  obtain ⟨d, computed⟩ := ofType_ok_of_below valid rfl below_diamond
  have answered := (Memo.faithful_empty.request_eq ⟨3⟩).trans computed
  obtain ⟨_, nodup, _, laid⟩ := request_layoutOrder (.empty diamond) valid answered
  exact ⟨d, answered, nodup, laid⟩

/-- **The closure over models is exact.** When the walk over all types ends, so does the walk over
models, and it finds the types that a chain of embedded models leads to, which are all reachable. -/
theorem ofType_transitive (valid : schema.validate = .ok ()) {order : List EntityId}
    (ended : Walk.all.below schema type = .ok order) :
    ∃ values d, Walk.models.below schema type = .ok values ∧ ofType schema type = .ok d ∧
      (∀ t, t ∈ d.transitive ↔ t ≠ type ∧ TransGen schema.EmbedsModel type t) ∧
      ∀ t ∈ d.transitive, t ∈ d.reachable := by
  obtain ⟨entity, declared⟩ := Walk.declared_of_below ended
  obtain ⟨values, models⟩ := Walk.below_models_ok valid declared ended
  obtain ⟨_, _, memModels⟩ := Walk.below_ok valid models
  obtain ⟨_, _, memAll⟩ := Walk.below_ok valid ended
  rw [Walk.follows_models] at memModels
  rw [Walk.follows_all valid] at memAll
  refine ⟨values, _, models,
    ofType_eq_ok_iff.mpr ⟨entity, order, values, declared, ended, models, rfl⟩, ?_, ?_⟩
  · exact fun t => EntityId.mem_sorted.trans (memModels t)
  · intro t mem
    obtain ⟨other, chain⟩ := (memModels t).mp (EntityId.mem_sorted.mp mem)
    have embedded : TransGen schema.Embeds type t :=
      TransGen.mono (fun _ _ => Registry.EmbedsModel.embeds) _ _ chain
    exact EntityId.mem_sorted.mpr ((memAll t).mpr ⟨other, embedded⟩)

theorem ofType_transitive_diamond :
    ∃ d, ofType diamond ⟨3⟩ = .ok d ∧ ⟨0⟩ ∈ d.transitive ∧ ∀ t ∈ d.transitive, t ∈ d.reachable := by
  obtain ⟨_, d, _, computed, mem, sub⟩ := ofType_transitive (by decide +kernel) below_diamond
  have right : diamond.EmbedsModel ⟨3⟩ ⟨2⟩ :=
    ⟨⟨_, rfl, _, .tail _ (.head _), .list (.embedded ⟨2⟩)⟩, _, rfl, rfl⟩
  have leaf : diamond.EmbedsModel ⟨2⟩ ⟨0⟩ :=
    ⟨⟨_, rfl, _, .head _, .optional (.embedded ⟨0⟩)⟩, _, rfl, rfl⟩
  exact ⟨d, computed, (mem ⟨0⟩).mpr ⟨by decide, .tail (.single right) leaf⟩, sub⟩

end Dependencies

end EntityForge
