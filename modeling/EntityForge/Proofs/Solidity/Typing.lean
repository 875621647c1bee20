import EntityForge.Proofs.Solidity.Structs
import EntityForge.Proofs.Solidity.ArrayCalls

/-!
Types of literals. A field is laid out by its declared type, and a zero value is written by it too, so
the two agree (`IsZero.exists_hasType`). A value is written by what it is: a record as the struct of its
own type, and a number with its sign. So a literal has the type of its field exactly if the value
`Fits` it (`literal_hasType_iff`).
-/

namespace EntityForge.Solidity

variable {m : ResolvedModel} {arrays : List ArrayInitialiser} {type : FieldType} {value : Value}
  {l : Literal} {t : SolType}

/-! ### Types -/

/-- The literal has the type, where the given functions build arrays. Numbers are unsigned, a call has
the type of the array that is built, whose items have its element type, and a struct has the members
of its definition. -/
inductive HasType (m : ResolvedModel) (arrays : List ArrayInitialiser) :
    Literal → SolType → Prop where
  | number {n : Int} : 0 ≤ n → HasType m arrays (.number n) .uint
  | ordinal (n : Nat) : HasType m arrays (.ordinal n) .uint
  | text (s : String) : HasType m arrays (.text s) .string
  | emptyArray (element : SolType) : HasType m arrays (.emptyArray element) (.array element)
  | arrayCall {array : ArrayInitialiser} : array ∈ arrays →
      (∀ item ∈ array.items, HasType m arrays item array.element) →
      HasType m arrays (.arrayCall array.number) (.array array.element)
  | struct {target : EntityId} {d : StructDef} {members : List (String × Literal)} :
      structOf m target = .ok d → members.map Prod.fst = d.members.map Prod.fst →
      (∀ member declared, (member, declared) ∈ members.zip d.members →
        HasType m arrays member.2 declared.2) →
      HasType m arrays (.struct d.name members) (.struct d.name)

/-- The value is written with its type at every depth: no number in it is negative, and every record
in it is of exactly the type that is declared there, which is not a model. -/
inductive Fits (m : ResolvedModel) : FieldType → Value → Prop where
  | nil (type : FieldType) : Fits m type .nil
  | int (type : FieldType) {n : Int} : 0 ≤ n → Fits m type (.int n)
  | string (type : FieldType) (text : String) : Fits m type (.string text)
  | ref (type : FieldType) (r : Reference) : Fits m type (.ref r)
  | list {type element : FieldType} {items : List Value} : type.unwrap = .list element →
      (∀ item ∈ items, Fits m element item) → Fits m type (.list items)
  | record {type : FieldType} {target : EntityId} {entity : EntityType}
      {fields : List (String × Value)} : type.unwrap = .embedded target →
      m.schema.entity? target = some entity → entity.kind ≠ .model →
      (∀ field ∈ entity.fields, ∀ v, SortedMap.find? compare field.name fields = some v →
        Fits m field.type v) → Fits m type (.record target fields)

theorem solType_unwrap : solType m type.unwrap = solType m type := by
  induction type with
  | optional inner ih => exact ih
  | scalar _ | list _ | map _ _ | reference _ | embedded _ => rfl

theorem hasType_number_iff {n : Int} : HasType m arrays (.number n) t ↔ t = .uint ∧ 0 ≤ n := by
  constructor
  · rintro ⟨⟩
    exact ⟨rfl, ‹_›⟩
  · rintro ⟨rfl, unsigned⟩
    exact .number unsigned

/-- Arrays that are told apart by their numbers give calls one type. -/
theorem hasType_arrayCall_iff (distinct : (arrays.map ArrayInitialiser.number).Nodup)
    {array : ArrayInitialiser} (listed : array ∈ arrays) :
    HasType m arrays (.arrayCall array.number) t ↔
      t = .array array.element ∧ ∀ item ∈ array.items, HasType m arrays item array.element := by
  constructor
  · intro typed
    generalize called : array.number = number at typed
    cases typed with
    | @arrayCall other mem items =>
        obtain rfl := List.inj_on_of_nodup_map distinct listed mem called
        exact ⟨rfl, items⟩
  · rintro ⟨rfl, items⟩
    exact .arrayCall listed items

/-- Structs that are told apart by their names give literals one type. -/
theorem hasType_struct_iff (verified : m.Verified) {target : EntityId} {d : StructDef}
    (made : structOf m target = .ok d) {members : List (String × Literal)} :
    HasType m arrays (.struct d.name members) t ↔ t = .struct d.name ∧
      List.Forall₂ (fun member declared => member.1 = declared.1 ∧
        HasType m arrays member.2 declared.2) members d.members := by
  rw [forall₂_eq_and_iff]
  constructor
  · intro typed
    generalize called : d.name = name at typed
    cases typed with
    | @struct other e _ made' names members =>
        obtain ⟨_, rfl⟩ := structOf_inj verified made made' called
        exact ⟨rfl, names, members⟩
  · rintro ⟨rfl, names, members⟩
    exact .struct made names members

/-- A struct literal with the token number has the members of the definition if the literals before it
have the types of the fields. -/
theorem exists_structOf_of_fields (arrays : List ArrayInitialiser) {target : EntityId}
    {entity : EntityType} {struct : String}
    (declared : m.schema.entity? target = some entity) (named : structName m target = .ok struct)
    (typed : ∀ field ∈ entity.fields, ∃ t, solType m field.type = .ok t) :
    ∃ d, structOf m target = .ok d ∧ d.name = struct ∧ ∀ members,
      List.Forall₂ (fun member declared => member.1 = declared.1 ∧
          HasType m arrays member.2 declared.2)
        (members ++ if entity.annotations.fungible then [("_token_id", .number 0)] else [])
        d.members ↔
      List.Forall₂ (fun field member => memberName field.name = member.1 ∧
        ∃ t, solType m field.type = .ok t ∧ HasType m arrays member.2 t) entity.fields members := by
  obtain ⟨parts, made⟩ := exists_mapM_eq_ok_iff.mpr fun field mem => by
    obtain ⟨t, computed⟩ := typed field mem
    exact ⟨(memberName field.name, t), memberOf_eq_ok_iff.mpr ⟨rfl, computed⟩⟩
  have each := mapM_eq_ok_iff.mp made
  refine ⟨⟨struct, _⟩, structOf_eq_ok_iff.mpr ⟨entity, parts, declared, named, each, rfl⟩, rfl,
    fun members => ?_⟩
  rw [forall₂_append_iff]
  · refine forall₂_iff_of_forall₂ each fun field part here member => ?_
    obtain ⟨same, computed⟩ := memberOf_eq_ok_iff.mp here
    rw [same, eq_comm (a := member.1), computed]
    simp
  · split
    · exact .cons ⟨rfl, .number le_rfl⟩ .nil
    · exact .nil

/-! ### Zero values -/

/-- **A zero value has its type.** -/
theorem IsZero.exists_hasType (arrays : List ArrayInitialiser) (isZero : IsZero m type l) :
    ∃ t, solType m type = .ok t ∧ HasType m arrays l t := by
  induction isZero with
  | int => exact ⟨.uint, rfl, .number le_rfl⟩
  | string => exact ⟨.string, rfl, .text ""⟩
  | reference target => exact ⟨.uint, rfl, .number le_rfl⟩
  | optional _ ih => exact ih
  | @list element t typed => exact ⟨.array t, bind_eq_ok_iff.mpr ⟨t, typed, rfl⟩, .emptyArray t⟩
  | byId byId => exact ⟨.uint, bind_eq_ok_iff.mpr ⟨true, byId, rfl⟩, .number le_rfl⟩
  | @struct target entity struct members inPlace declared named names _ ih =>
      have each := forall₂_eq_and_iff.mpr ⟨names, ih⟩
      obtain ⟨d, made, rfl, typed⟩ :=
        exists_structOf_of_fields arrays declared named fun field mem => by
          obtain ⟨_, _, _, t, computed, _⟩ := (exists_of_forall₂ each).1 field mem
          exact ⟨t, computed⟩
      obtain ⟨names, members⟩ := forall₂_eq_and_iff.mp ((typed members).mpr each)
      exact ⟨.struct d.name, bind_eq_ok_iff.mpr ⟨false, inPlace,
        bind_eq_ok_iff.mpr ⟨d.name, named, rfl⟩⟩, .struct made names members⟩

/-! ### Values -/

/-- Models are stored by number, other declared types as their structs. -/
theorem solType_embedded {target : EntityId} {entity : EntityType} {struct : String}
    (declared : m.schema.entity? target = some entity) (named : structName m target = .ok struct) :
    solType m (.embedded target) =
      .ok (if entity.kind = .model then .uint else .struct struct) := by
  rw [solType, storedById, Registry.get_eq_ok_iff.mpr declared, named]
  change (if (entity.kind == .model) = true then Except.ok (ε := Error) SolType.uint
    else .ok (.struct struct)) = _
  cases entity.kind <;> rfl

/-- A value that is accepted and written has a type. -/
theorem exists_solType_of_writes {ordinals : List Nat} (verified : m.Verified)
    (writes : Writes m arrays type value l)
    (yields : Resolution.Yields m.schema m.instances type value ordinals) :
    ∃ t, solType m type = .ok t := by
  cases writes with
  | nil isZero =>
      obtain ⟨t, typed, _⟩ := isZero.exists_hasType arrays
      exact ⟨t, typed⟩
  | int n fits | string text fits | ref fits _ =>
      rw [← solType_unwrap, fits]
      exact ⟨_, rfl⟩
  | list fits _ typed _ _ =>
      rw [← solType_unwrap, fits]
      exact ⟨_, bind_eq_ok_iff.mpr ⟨_, typed, rfl⟩⟩
  | record fits declared _ _ _ =>
      obtain ⟨⟨expected, known⟩, _⟩ := yields.of_record fits declared
      rw [← solType_unwrap, fits]
      exact ⟨_, solType_embedded known (structName_eq verified known)⟩

/-- A record fits if its type is that of its struct and all its fields fit. -/
theorem fits_record_iff (verified : m.Verified) {target actual : EntityId} {entity : EntityType}
    {struct : String} {fields : List (String × Value)} (fits : type.unwrap = .embedded target)
    (declares : m.schema.Declares target) (declared : m.schema.entity? actual = some entity)
    (named : structName m actual = .ok struct) (typed : solType m type = .ok t) :
    Fits m type (.record actual fields) ↔ t = .struct struct ∧
      ∀ field ∈ entity.fields,
        Fits m field.type ((SortedMap.find? compare field.name fields).getD .nil) := by
  obtain ⟨expected, known⟩ := declares
  have named' := structName_eq verified known
  rw [← solType_unwrap, fits, solType_embedded known named'] at typed
  constructor
  · intro whole
    cases whole with
    | record fits' declared' other all =>
        cases fits.symm.trans fits'
        cases declared.symm.trans declared'
        cases declared.symm.trans known
        rw [if_neg other] at typed
        refine ⟨?_, fun field mem => ?_⟩
        · rw [← Except.ok.inj typed, Except.ok.inj (named.symm.trans named')]
        · cases held : SortedMap.find? compare field.name fields with
          | none => exact .nil _
          | some v => exact all field mem v held
  · rintro ⟨rfl, all⟩
    by_cases model : expected.kind = .model
    · rw [if_pos model] at typed
      cases typed
    · rw [if_neg model] at typed
      have same : expected.tag ++ "_t" = struct := SolType.struct.inj (Except.ok.inj typed)
      obtain rfl := structName_inj verified ⟨expected, known⟩ ⟨entity, declared⟩ named'
        (same ▸ named)
      cases declared.symm.trans known
      refine .record fits declared model fun field mem v held => ?_
      have here := all field mem
      rwa [held] at here

/-- The call for a list has the type of the list exactly if all items fit. -/
theorem hasType_list_iff (distinct : (arrays.map ArrayInitialiser.number).Nodup) {element : FieldType}
    {items : List Value} {array : ArrayInitialiser} (fits : type.unwrap = .list element)
    (listed : array ∈ arrays) (built : solType m element = .ok array.element)
    (typed : solType m type = .ok t)
    (each : List.Forall₂ (fun item l => HasType m arrays l array.element ↔ Fits m element item)
      items array.items) :
    HasType m arrays (.arrayCall array.number) t ↔ Fits m type (.list items) := by
  rw [← solType_unwrap, fits] at typed
  obtain ⟨t', typed', last⟩ := bind_eq_ok_iff.mp typed
  cases last
  cases built.symm.trans typed'
  rw [hasType_arrayCall_iff distinct listed,
    ← forall_iff_of_forall₂ (each.imp fun _ _ same => same.symm)]
  constructor
  · rintro ⟨_, each⟩
    exact .list fits each
  · intro whole
    cases whole with
    | list fits' each =>
        cases fits.symm.trans fits'
        exact ⟨rfl, each⟩

/-- The struct for a record has the type that is declared exactly if the record fits. -/
theorem hasType_record_iff (verified : m.Verified) {target actual : EntityId} {entity : EntityType}
    {struct : String} {fields : List (String × Value)} {members : List (String × Literal)}
    (fits : type.unwrap = .embedded target) (declares : m.schema.Declares target)
    (declared : m.schema.entity? actual = some entity) (named : structName m actual = .ok struct)
    (typed : solType m type = .ok t)
    (each : List.Forall₂ (fun field member => memberName field.name = member.1 ∧
      ∃ t, solType m field.type = .ok t ∧ (HasType m arrays member.2 t ↔
        Fits m field.type ((SortedMap.find? compare field.name fields).getD .nil)))
      entity.fields members) :
    HasType m arrays (.struct struct
        (members ++ if entity.annotations.fungible then [("_token_id", .number 0)] else [])) t ↔
      Fits m type (.record actual fields) := by
  obtain ⟨d, made, rfl, literals⟩ :=
    exists_structOf_of_fields arrays declared named fun field mem => by
      obtain ⟨_, _, _, t, typed, _⟩ := (exists_of_forall₂ each).1 field mem
      exact ⟨t, typed⟩
  have set : List.Forall₂ (fun field member => (memberName field.name = member.1 ∧
      ∃ t, solType m field.type = .ok t ∧ HasType m arrays member.2 t) ↔
      Fits m field.type ((SortedMap.find? compare field.name fields).getD .nil))
      entity.fields members := by
    refine each.imp fun field member here => ?_
    obtain ⟨named, t, typed, same⟩ := here
    simp only [named, typed, Except.ok.injEq, true_and, exists_eq_left', same]
  rw [hasType_struct_iff verified made, literals, forall₂_iff_forall set]
  exact (fits_record_iff verified fits declares declared named typed).symm

/-- **A literal has the type of its value exactly if the value fits.** -/
theorem hasType_iff_of_writes (verified : m.Verified)
    (distinct : (arrays.map ArrayInitialiser.number).Nodup) (writes : Writes m arrays type value l) :
    ∀ ordinals, Resolution.Yields m.schema m.instances type value ordinals →
      ∀ t, solType m type = .ok t → (HasType m arrays l t ↔ Fits m type value) := by
  -- By how the literal is written. That the value is accepted is carried along: it gives the members of
  -- a record types, so that the induction applies to them.
  induction writes with
  | nil isZero =>
      intro ordinals yields t typed
      obtain ⟨t', typed', hasType⟩ := isZero.exists_hasType arrays
      cases typed.symm.trans typed'
      exact ⟨fun _ => .nil _, fun _ => hasType⟩
  | int n fits =>
      intro ordinals yields t typed
      rw [← solType_unwrap, fits] at typed
      cases typed
      rw [hasType_number_iff]
      refine ⟨fun ⟨_, unsigned⟩ => .int _ unsigned, ?_⟩
      rintro ⟨⟩
      exact ⟨rfl, ‹_›⟩
  | string text fits =>
      intro ordinals yields t typed
      rw [← solType_unwrap, fits] at typed
      cases typed
      exact ⟨fun _ => .string _ text, fun _ => .text text⟩
  | ref fits _ =>
      intro ordinals yields t typed
      rw [← solType_unwrap, fits] at typed
      cases typed
      exact ⟨fun _ => .ref _ _, fun _ => .ordinal _⟩
  | list fits listed built same each ih =>
      intro ordinals yields t typed
      obtain ⟨parts, visited, _⟩ := yields.of_list fits
      refine hasType_list_iff distinct fits listed built typed
        (List.forall₂_iff_zip.mpr ⟨same, fun mem => ?_⟩)
      obtain ⟨os, _, here⟩ := (exists_of_forall₂ visited).1 _ (List.of_mem_zip mem).1
      exact ih _ _ mem os here _ built
  | record fits declared named names each ih =>
      intro ordinals yields t typed
      obtain ⟨declares, parts, visited, _⟩ := yields.of_record fits declared
      refine hasType_record_iff verified fits declares declared named typed
        (forall₂_eq_and_iff.mpr ⟨names, fun field member mem => ?_⟩)
      obtain ⟨os, _, here⟩ := (exists_of_forall₂ visited).1 field (List.of_mem_zip mem).1
      obtain ⟨t, typed⟩ := exists_solType_of_writes verified (each field member mem) here
      exact ⟨t, typed, ih field member mem os here t typed⟩

/-! ### Literals -/

/-- **A literal has the type of its field exactly if the value fits it.** Every value that is accepted
at a type and written has a type in the contract, and its literal has this type if and only if no
number in it is negative and every record in it is of exactly the declared type, which is not a
model. -/
theorem literal_hasType_iff {schema : Registry} {instances : InstanceRegistry}
    (reachable : schema.Reachable) (filled : instances.Filled)
    (built : ResolvedModel.build schema instances = .ok m) {path : String}
    {found : List ResolvedReference}
    (accepted : Resolution.references m.schema m.instances type value path = .ok found)
    {s s' : Arrays} (run : (literal m type value).run s = .ok (l, s')) :
    ∃ t, solType m type = .ok t ∧ ∀ arrays, s'.pending ⊆ arrays →
      (arrays.map ArrayInitialiser.number).Nodup →
        (HasType m arrays l t ↔ Fits m type value) := by
  have verified := ResolvedModel.verified_of_build reachable.consistent filled built
  have yields : Resolution.Yields m.schema m.instances type value _ := ⟨path, found, accepted, rfl⟩
  obtain ⟨t, typed⟩ := exists_solType_of_writes verified
    (writes_of_literal type value run (List.Subset.refl _)) yields
  refine ⟨t, typed, fun arrays kept distinct => ?_⟩
  exact hasType_iff_of_writes verified distinct (writes_of_literal type value run kept) _ yields t
    typed

/-- Catalog data with a list of numbers, and with a model in place. -/
def arenas : List Call := [
  .schema (.reserve "ArenaData"),
  .schema (.declare {
    name := "HeroModel", fields := [{ name := "exp", type := .scalar .int }], root := some .model }),
  .schema (.declare {
    name := "Prize", fields := [{ name := "amounts", type := .list (.scalar .int) }] }),
  .schema (.declare {
    name := "ArenaData"
    fields := [
      { name := "champion", type := .embedded ⟨1⟩ }, { name := "prize", type := .embedded ⟨2⟩ }]
    root := some .dataCatalog }),
  .register "colosseum" {
    type := ⟨0⟩
    fields := [
      ("champion", .record ⟨1⟩ [("exp", .int 5)]),
      ("prize", .record ⟨2⟩ [("amounts", .list [.int 3, .int 4])])] },
  .close]

/-- Whether the model of some calls accepts a value at a type, and writes it as a text. -/
def writesAs (calls : List Call) (type : FieldType) (value : Value) (text : String) :
    Except Error Bool := do
  let m ← ResolvedModel.build (History.run calls).schema (History.run calls).instances
  let _ ← Resolution.references m.schema m.instances type value ""
  let (l, arrays) ← (literal m type value).run {}
  return l.render = text ∧ (arrays.pending.map ArrayInitialiser.number).Nodup

theorem exists_written (calls : List Call) (type : FieldType) (value : Value) (text : String)
    (writes : writesAs calls type value text = .ok true) : ∃ m found l s,
      ResolvedModel.build (History.run calls).schema (History.run calls).instances = .ok m ∧
      Resolution.references m.schema m.instances type value "" = .ok found ∧
      (literal m type value).run {} = .ok (l, s) ∧ l.render = text ∧
      (s.pending.map ArrayInitialiser.number).Nodup := by
  obtain ⟨m, built, writes⟩ := bind_eq_ok_iff.mp writes
  obtain ⟨found, accepted, writes⟩ := bind_eq_ok_iff.mp writes
  obtain ⟨⟨l, s⟩, run, checked⟩ := bind_eq_ok_iff.mp writes
  obtain ⟨rendered, distinct⟩ := of_decide_eq_true (Except.ok.inj checked)
  exact ⟨m, found, l, s, built, accepted, run, rendered, distinct⟩

theorem literal_hasType_iff_arenas : ∃ m l s t,
    ResolvedModel.build (History.run arenas).schema (History.run arenas).instances = .ok m ∧
    (literal m (.embedded ⟨2⟩) (.record ⟨2⟩ [("amounts", .list [.int 3, .int 4])])).run {} =
      .ok (l, s) ∧ l.render = "prize_t(\x7bamounts: get_array_1()\x7d)" ∧
    solType m (.embedded ⟨2⟩) = .ok t ∧ HasType m s.pending l t := by
  obtain ⟨m, found, l, s, built, accepted, run, rendered, distinct⟩ := exists_written
    arenas (.embedded ⟨2⟩) (.record ⟨2⟩ [("amounts", .list [.int 3, .int 4])])
    "prize_t(\x7bamounts: get_array_1()\x7d)" (by decide +kernel)
  obtain ⟨sameSchema, _⟩ := ResolvedModel.of_build built
  obtain ⟨t, typed, sound⟩ := literal_hasType_iff (History.run_sound arenas).reachable
    (History.filled_run arenas) built accepted run
  have prize : ∃ entity, (History.run arenas).schema.entity? ⟨2⟩ = some entity ∧
      entity.kind ≠ .model ∧ entity.fields = [{ name := "amounts", type := .list (.scalar .int) }] :=
    ⟨_, rfl, by decide, rfl⟩
  obtain ⟨entity, declared, other, single⟩ := prize
  refine ⟨m, l, s, t, built, run, rendered, typed,
    (sound s.pending (List.Subset.refl _) distinct).mpr
      (.record rfl (sameSchema ▸ declared) other fun field mem v held => ?_)⟩
  rw [single, List.mem_singleton] at mem
  cases mem
  cases held
  refine .list rfl fun item listed => ?_
  simp only [List.mem_cons, List.not_mem_nil, or_false] at listed
  rcases listed with rfl | rfl
  all_goals exact .int _ (by decide)

/-- **A literal may have another type than its field**: a model is stored by number, but a record of a
model is written as a struct. -/
theorem literal_mistyped : ∃ m found l s,
    ResolvedModel.build (History.run arenas).schema (History.run arenas).instances = .ok m ∧
    Resolution.references m.schema m.instances (.embedded ⟨1⟩) (.record ⟨1⟩ [("exp", .int 5)]) "" =
      .ok found ∧
    (literal m (.embedded ⟨1⟩) (.record ⟨1⟩ [("exp", .int 5)])).run {} = .ok (l, s) ∧
    l.render = "hero_model_t(\x7bexp: 5\x7d)" ∧ solType m (.embedded ⟨1⟩) = .ok .uint ∧
    ∀ arrays, ¬ HasType m arrays l .uint := by
  obtain ⟨m, found, l, s, built, accepted, run, rendered, _⟩ := exists_written
    arenas (.embedded ⟨1⟩) (.record ⟨1⟩ [("exp", .int 5)]) "hero_model_t(\x7bexp: 5\x7d)"
    (by decide +kernel)
  obtain ⟨sameSchema, _⟩ := ResolvedModel.of_build built
  refine ⟨m, found, l, s, built, accepted, run, rendered, ?_, fun arrays typed => ?_⟩
  · rw [solType, storedById, sameSchema]
    rfl
  · cases writes_of_literal _ _ run (List.Subset.refl _)
    cases typed

end EntityForge.Solidity
