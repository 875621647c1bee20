import EntityForge.Proofs.Instances.Listing
import EntityForge.Proofs.Schema.Inheritance

/-!
Values of a type. `Conforms` says what a value of a declared type looks like at every depth; a visit
succeeds on such values and on no others, except that it never looks at the keys of maps
(`Place.conforms_iff`). Keys are a parameter of the relation: with the kinds that types declare it is
the full one, and with any keys at all it is what a visit tests.
-/

namespace EntityForge

namespace FieldType

/-- The values that are keys of a type. -/
def IsKey : FieldType → Value → Prop
  | scalar .int, .int _ | scalar .string, .string _ => True
  | _, _ => False

theorem unwrap_ne_optional (type inner : FieldType) : type.unwrap ≠ optional inner := by
  induction type with
  | optional _ ih => exact ih
  | _ => exact nofun

end FieldType

/-- The values of a type, where `keyed` says which values are keys of a type. -/
inductive Conforms (schema : Registry) (instances : InstanceRegistry)
    (keyed : FieldType → Value → Prop) : FieldType → Value → Prop where
  | nil {type : FieldType} : Conforms schema instances keyed type .nil
  | int (n : Int) : Conforms schema instances keyed (.scalar .int) (.int n)
  | string (text : String) : Conforms schema instances keyed (.scalar .string) (.string text)
  | optional {inner : FieldType} {value : Value} : Conforms schema instances keyed inner value →
      Conforms schema instances keyed (.optional inner) value
  | list {element : FieldType} {items : List Value} :
      (∀ item ∈ items, Conforms schema instances keyed element item) →
      Conforms schema instances keyed (.list element) (.list items)
  | map {key inner : FieldType} {entries : List (Value × Value)} :
      (∀ entry ∈ entries, keyed key entry.1) →
      (∀ entry ∈ entries, Conforms schema instances keyed inner entry.2) →
      Conforms schema instances keyed (.map key inner) (.map entries)
  /-- The reference names an instance of its target. -/
  | ref {target : EntityId} {ordinal : Nat} {r : Reference} :
      r.Names schema instances ⟨target, ordinal⟩ →
      Conforms schema instances keyed (.reference target) (.ref r)
  /-- The record is of the target or of a type below it, whose fields it has. -/
  | record {target actual : EntityId} {entity : EntityType} {fields : List (String × Value)} :
      schema.IsOrDescends actual target → schema.entity? actual = some entity →
      (∀ field ∈ entity.fields, ∀ value, SortedMap.find? compare field.name fields = some value →
        Conforms schema instances keyed field.type value) →
      Conforms schema instances keyed (.embedded target) (.record actual fields)

variable {schema : Registry} {instances : InstanceRegistry} {keyed : FieldType → Value → Prop}

/-- Optional layers only add nil, which conforms to every type. -/
theorem conforms_unwrap {type : FieldType} {value : Value} :
    Conforms schema instances keyed type.unwrap value ↔
      Conforms schema instances keyed type value := by
  induction type with
  | optional inner ih =>
      constructor
      · exact fun conforms => .optional (ih.mp conforms)
      · intro conforms
        cases conforms with
        | nil => exact .nil
        | optional inside => exact ih.mpr inside
  | _ => rfl

namespace Resolution.Place

variable {p : Place}

/-- The keys of a map are of the declared kind. -/
def KeysFit (keyed : FieldType → Value → Prop) (p : Place) : Prop :=
  ∀ key inner entries, p.type.unwrap = .map key inner → p.value = .map entries →
    ∀ entry ∈ entries, keyed key entry.1

theorem keysFit_of_ne (other : ∀ entries, p.value ≠ .map entries) : p.KeysFit keyed :=
  fun _ _ entries _ value => absurd value (other entries)

/-- What holds at every position of a place holds at the place itself and in its parts. -/
theorem forall_at?_iff {P : Place → Prop} :
    (∀ position q, p.at? schema position = some q → P q) ↔
      P p ∧ ∀ part ∈ p.parts schema, ∀ position q, part.at? schema position = some q → P q := by
  constructor
  · intro all
    refine ⟨all [] p rfl, fun part mem position q at_ => ?_⟩
    obtain ⟨n, here⟩ := List.mem_iff_getElem?.mp mem
    refine all (n :: position) q ?_
    rw [at?, here]
    exact at_
  · rintro ⟨here, inside⟩ position q at_
    rcases at?_eq_some_iff.mp at_ with ⟨_, rfl⟩ | ⟨k, part, rest, listed, _, at_⟩
    · exact here
    · exact inside part (List.mem_of_getElem? listed) rest q at_

/-! ### Conforming places -/

/-- A value of a type passes the test of its shape, has keys of the declared kind, and its parts are
values of their types. -/
theorem of_conforms (consistent : schema.Consistent) (filled : instances.Filled)
    (closed : instances.isSealed = true) (conforms : Conforms schema instances keyed p.type p.value) :
    (∃ here, p.own schema instances = .ok here) ∧ p.KeysFit keyed ∧
      ∀ q ∈ p.parts schema, Conforms schema instances keyed q.type q.value := by
  have shaped := conforms_unwrap.mpr conforms
  generalize shape : p.type.unwrap = type at shaped
  generalize content : p.value = value at shaped
  have none : p.parts schema = [] →
      ∀ q ∈ p.parts schema, Conforms schema instances keyed q.type q.value := by
    intro empty q mem
    rw [empty] at mem
    cases mem
  cases shaped with
  | nil =>
      refine ⟨⟨[], ?_⟩, keysFit_of_ne (by simp [content]), none ?_⟩
      · simp only [own, content]
      · unfold parts
        rw [content]
        cases p.type.unwrap <;> rfl
  | int n =>
      exact ⟨⟨[], by simp only [own, shape, content]⟩, keysFit_of_ne (by simp [content]),
        none (by simp only [parts, shape, content])⟩
  | string text =>
      exact ⟨⟨[], by simp only [own, shape, content]⟩, keysFit_of_ne (by simp [content]),
        none (by simp only [parts, shape, content])⟩
  | optional _ => exact absurd shape (FieldType.unwrap_ne_optional p.type _)
  | list inside =>
      exact ⟨⟨[], by simp only [own, shape, content]⟩, keysFit_of_ne (by simp [content]),
        (forall_parts_list shape content).mpr inside⟩
  | map keys inside =>
      refine ⟨⟨[], by simp only [own, shape, content]⟩, ?_,
        (forall_parts_map shape content).mpr inside⟩
      intro key' inner' entries' type value
      rw [shape] at type
      rw [content] at value
      cases type
      cases value
      exact keys
  | @ref target ordinal r named =>
      refine ⟨⟨[{ path := p.path, target, id := r.id, ordinal }], ?_⟩,
        keysFit_of_ne (by simp [content]), none (by simp only [parts, shape, content])⟩
      simp only [own, shape, content]
      rw [(resolveTyped_eq_ok_iff consistent filled).mpr ⟨closed, named⟩]
      rfl
  | record below found inside =>
      refine ⟨⟨[], ?_⟩, keysFit_of_ne (by simp [content]),
        (forall_parts_record shape content found).mpr inside⟩
      obtain ⟨above, foundAbove⟩ := consistent.declared_of_isOrDescends below
      have related := (consistent.isOrDescends_iff found foundAbove).mp below
      simp only [own, shape, content]
      rw [Registry.get_eq_ok_iff.mpr foundAbove, Registry.get_eq_ok_iff.mpr found]
      exact if_neg related

/-- The converse: with the parts, what passes the test of its shape is a value of its type if its keys
are of the declared kind. -/
theorem conforms_of_parts (consistent : schema.Consistent) (filled : instances.Filled)
    {here : List ResolvedReference} (tested : p.own schema instances = .ok here)
    (keys : p.KeysFit keyed)
    (inside : ∀ q ∈ p.parts schema, Conforms schema instances keyed q.type q.value) :
    Conforms schema instances keyed p.type p.value := by
  rw [← conforms_unwrap]
  unfold own at tested
  generalize shape : p.type.unwrap = type at tested
  generalize content : p.value = value at tested
  split at tested
  case h_1 => exact .nil
  case h_2 n => exact .int n
  case h_3 text => exact .string text
  case h_4 => exact .list ((forall_parts_list shape content).mp inside)
  case h_5 key inner entries =>
    exact .map (keys _ _ _ shape content) ((forall_parts_map shape content).mp inside)
  case h_6 target r =>
    obtain ⟨ordinal, resolved, _⟩ := bind_eq_ok_iff.mp tested
    exact .ref ((resolveTyped_eq_ok_iff consistent filled).mp (inContext_eq_ok_iff.mp resolved)).2
  case h_7 target actual fields =>
    obtain ⟨above, foundAbove, tested⟩ := bind_eq_ok_iff.mp tested
    obtain ⟨entity, found, tested⟩ := bind_eq_ok_iff.mp tested
    rw [Registry.get_eq_ok_iff] at found foundAbove
    split at tested
    · cases tested
    · rename_i related
      exact .record ((consistent.isOrDescends_iff found foundAbove).mpr related) found
        ((forall_parts_record shape content found).mp inside)
  case h_8 => cases tested

/-- **A visit succeeds on the values of a type**, and on those that only differ from them in the keys
of their maps. -/
theorem conforms_iff (consistent : schema.Consistent) (filled : instances.Filled)
    (closed : instances.isSealed = true) (p : Place) :
    Conforms schema instances keyed p.type p.value ↔
      (∃ found, p.visit schema instances = .ok found) ∧
        ∀ position q, p.at? schema position = some q → q.KeysFit keyed := by
  induction p using Place.induction schema with
  | step p ih =>
      rw [exists_visit_iff, forall_at?_iff]
      constructor
      · intro conforms
        obtain ⟨tested, keys, inside⟩ := of_conforms consistent filled closed conforms
        exact ⟨⟨tested, fun q mem => ((ih q mem).mp (inside q mem)).1⟩, keys,
          fun q mem => ((ih q mem).mp (inside q mem)).2⟩
      · rintro ⟨⟨⟨here, tested⟩, visits⟩, keys, keysInside⟩
        exact conforms_of_parts consistent filled tested keys fun q mem =>
          (ih q mem).mpr ⟨visits q mem, keysInside q mem⟩

end Resolution.Place

/-- The type of an instance is declared, and what the record sets of its effective fields is of their
types. -/
def Instance.Conforms (schema : Registry) (instances : InstanceRegistry)
    (keyed : FieldType → Value → Prop) (i : Instance) : Prop :=
  ∃ entity, schema.entity? i.type = some entity ∧ ∀ field ∈ entity.fields, ∀ value,
    i.record.get? field.name = some value →
      EntityForge.Conforms schema instances keyed field.type value

namespace Resolution

variable {i : Instance}

theorem conforms_ofInstance_iff : i.Conforms schema instances keyed ↔
    Conforms schema instances keyed (Place.ofInstance i).type (Place.ofInstance i).value := by
  constructor
  · rintro ⟨entity, found, inside⟩
    exact .record ⟨entity, found, .inl rfl⟩ found inside
  · intro conforms
    cases conforms with
    | record _ found inside => exact ⟨_, found, inside⟩

theorem exists_validateInstance_iff : (∃ found, validateInstance schema instances i = .ok found) ↔
    ∃ found, (Place.ofInstance i).visit schema instances = .ok found := by
  cases declared : schema.entity? i.type with
  | some entity =>
      rw [validateInstance_eq declared]
      exact exists_congr fun _ => inContext_eq_ok_iff
  | none =>
      constructor
      · rintro ⟨found, run⟩
        obtain ⟨name, failed⟩ : ∃ name, validateInstance schema instances i = _ :=
          validateInstance_of_undeclared declared
        rw [failed] at run
        cases run
      · rintro ⟨found, run⟩
        obtain ⟨_, _, tested, _⟩ := Place.visit_eq_ok_iff.mp run
        obtain ⟨entity, found, _⟩ := bind_eq_ok_iff.mp tested
        rw [Registry.get_eq_ok_iff.mp found] at declared
        cases declared

/-- **The visit of an instance tests the shapes of its values, but not the keys of its maps.** In a
sealed registry it succeeds exactly if everything under an effective field is of the declared type at
every depth, whatever the keys are, so an instance is of its type in full exactly if the visit
succeeds and the keys of all its maps are of the declared kind. -/
theorem validateInstance_conforms (reachable : schema.Reachable) (filled : instances.Filled)
    (closed : instances.isSealed = true) (i : Instance) :
    ((∃ found, validateInstance schema instances i = .ok found) ↔
      i.Conforms schema instances fun _ _ => True) ∧
    (i.Conforms schema instances FieldType.IsKey ↔
      (∃ found, validateInstance schema instances i = .ok found) ∧
        ∀ position q, (Place.ofInstance i).at? schema position = some q →
          q.KeysFit FieldType.IsKey) := by
  rw [exists_validateInstance_iff, conforms_ofInstance_iff, conforms_ofInstance_iff,
    Place.conforms_iff reachable.consistent filled closed,
    Place.conforms_iff reachable.consistent filled closed]
  refine ⟨⟨fun visited => ⟨visited, ?_⟩, And.left⟩, Iff.rfl⟩
  exact fun _ _ _ _ _ _ _ _ _ _ => trivial

theorem validateInstance_conforms_ada :
    (History.run squad).instances.instance? ada.key = some ada ∧
      ada.Conforms (History.run squad).schema (History.run squad).instances fun _ _ => True := by
  have tested := (validateInstance_conforms (History.run_sound squad).reachable
    (History.filled_run squad) (by decide +kernel) ada).1
  exact ⟨by decide +kernel, tested.mp (by decide +kernel)⟩

/-- A knight whose bonuses are written by name where they are declared by number. -/
def knight : Instance where
  id := "knight"
  ordinal := 0
  record := {
    type := ⟨0⟩
    fields := [("bonuses", .map [(.string "x", .int 1)])] }

/-- A registry with the knight alone. -/
def ledger : List EntityForge.Call := [
  .schema (.declare {
    name := "HeroData"
    fields := [{ name := "bonuses", type := .map (.scalar .int) (.scalar .int) }] }),
  .register knight.id knight.record,
  .close]

/-- The visit passes over keys of another kind. -/
theorem validateInstance_keys :
    (History.run ledger).schema.validate = .ok () ∧
      (History.run ledger).instances.isSealed = true ∧
      (History.run ledger).instances.instance? knight.key = some knight ∧
      validateInstance (History.run ledger).schema (History.run ledger).instances knight = .ok [] ∧
      ¬ knight.Conforms (History.run ledger).schema (History.run ledger).instances
        FieldType.IsKey := by
  refine ⟨by decide +kernel, by decide +kernel, by decide +kernel, by decide +kernel, ?_⟩
  have declared : ((History.run ledger).schema.entity? knight.type).map EntityType.fields =
      some [{ name := "bonuses", type := .map (.scalar .int) (.scalar .int) }] := by decide +kernel
  rintro ⟨entity, found, inside⟩
  rw [found] at declared
  rw [Option.some.inj declared] at inside
  cases inside _ List.mem_cons_self (.map [(.string "x", .int 1)]) (by decide +kernel) with
  | map keys _ => exact keys _ List.mem_cons_self

end Resolution

end EntityForge
