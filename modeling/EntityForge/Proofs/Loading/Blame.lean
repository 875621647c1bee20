import EntityForge.Proofs.Loading.Documents
import EntityForge.Proofs.Loading.Nesting

/-!
What a failed load is blamed on. Documents are merged before any entry is converted, so the first that
does not fit the catalog is named first (`Misfit`). Otherwise the load stops at the first entry, in
the order of the catalog, that is not converted or not registered behind those before it (`StopsAt`);
merging keeps the source of each entry with it, so the error names the document that the entry comes
from. Every layer only adds what the layers below it have not recorded (`load_blames`).
-/

namespace EntityForge.Loading

variable {schema : Registry} {catalog : EntityType} {accepted : List (String × Record)}
  {r : InstanceRegistry} {documents : List Document} {element : EntityId} {e : Error}

/-! ### Documents that do not fit -/

/-- A member of a document is a list for a field of the catalog. -/
def Listed (catalog : EntityType) (member : String × Json) : Prop :=
  (∃ field, catalog.field? member.1 = some field) ∧ ∃ entries, member.2 = .array entries

/-- How a document does not fit the catalog: it is no object, or its first member that is no list for
a field has an unknown key or something else than a list. -/
inductive Misfit (catalog : EntityType) (document : Document) : Error → Prop where
  | noObject : (∀ members, document.content ≠ .object members) → Misfit catalog document
      { cause := .parse ("expected an object of catalog lists, found " ++ document.content.kindName)
        context := some { source := some document.source } }
  | unknownKey {before after : List (String × Json)} {key : String} {content : Json} :
      document.content = .object (before ++ (key, content) :: after) →
      (∀ member ∈ before, Listed catalog member) → catalog.field? key = none →
      Misfit catalog document
        { cause := .parse ("unknown key " ++ Text.quoted key ++ " for " ++ catalog.name)
          context := some { source := some document.source } }
  | noList {before after : List (String × Json)} {key : String} {field : Field} {content : Json} :
      document.content = .object (before ++ (key, content) :: after) →
      (∀ member ∈ before, Listed catalog member) → catalog.field? key = some field →
      (∀ entries, content ≠ .array entries) →
      Misfit catalog document
        { cause := .valueMismatch "list" content.kindName
          context := some { field := some key, source := some document.source } }

theorem Misfit.source {document : Document} (misfit : Misfit catalog document e) :
    e.piece? .source = some document.source := by
  cases misfit <;> rfl

theorem misfit_of_mergeDocument {document : Document} {merged : List Entries}
    (failed : mergeDocument catalog merged document = .error e) : Misfit catalog document e := by
  unfold mergeDocument at failed
  split at failed
  · rename_i members object
    obtain ⟨before, ⟨key, content⟩, after, middle, rfl, earlier, failed⟩ :=
      exists_split_of_foldlM_eq_error failed
    have listed : ∀ member ∈ before, Listed catalog member := by
      rintro ⟨key, content⟩ mem
      obtain ⟨_, _, step⟩ := exists_step_of_foldlM_eq_ok earlier (key, content) mem
      obtain ⟨k, entries, found, array, _⟩ := mergeMember_eq_ok_iff.mp step
      exact ⟨findIdx?_isSome_iff.mp (found ▸ rfl), entries, array⟩
    unfold mergeMember at failed
    dsimp only at failed
    split at failed
    · rename_i absent
      cases failed
      refine .unknownKey object listed (Option.eq_none_iff_forall_ne_some.mpr fun field found => ?_)
      have known := findIdx?_isSome_iff.mpr ⟨field, found⟩
      rw [absent] at known
      cases known
    · rename_i k found
      obtain ⟨field, known⟩ := findIdx?_isSome_iff.mp (Option.isSome_iff_exists.mpr ⟨k, found⟩)
      split at failed
      · cases failed
      · rename_i other
        obtain rfl : _ = e := Except.error.inj failed
        exact .noList object listed known other
  · rename_i other
    cases failed
    exact .noObject other

/-- The first document that does not fit is refused. -/
theorem misfit_of_load (hasCatalog : schema.catalog? = some catalog) {before after : List Document}
    {document : Document} (fits : ∀ earlier ∈ before, earlier.Fits catalog)
    (misfits : ¬ document.Fits catalog)
    (failed : load schema (before ++ document :: after) = .error e) : Misfit catalog document e := by
  have catalogFound : catalogOf schema = .ok catalog := by rw [catalogOf, hasCatalog]
  obtain ⟨merged, earlier⟩ := exists_merge_eq_ok fits
  have refused : ∃ e', mergeDocument catalog merged document = .error e' := by
    cases run : mergeDocument catalog merged document with
    | ok merged' => exact (misfits (fits_of_mergeDocument run)).elim
    | error e' => exact ⟨e', rfl⟩
  obtain ⟨e', refused⟩ := refused
  have merging : merge catalog (before ++ document :: after) = .error e' := by
    unfold merge at earlier ⊢
    rw [List.foldlM_append]
    refine bind_eq_error_iff.mpr (.inr ⟨merged, earlier, ?_⟩)
    exact bind_eq_error_iff.mpr (.inl refused)
  have same : load schema (before ++ document :: after) = .error e' := by
    refine bind_eq_error_iff.mpr (.inr ⟨catalog, catalogFound, ?_⟩)
    exact bind_eq_error_iff.mpr (.inl merging)
  cases same.symm.trans failed
  exact misfit_of_mergeDocument refused

/-! ### Rejected entries -/

/-- Why an entry is rejected behind those that have been accepted: it is not converted, has no id, is
of the catalog's kind, repeats an id, or finds no room. -/
inductive Rejected (schema : Registry) (accepted : List (String × Record)) (element : EntityId)
    (content : Json) : Error → Prop where
  | unconverted {e : Error} : convertEntry schema element content = .error e →
      Rejected schema accepted element content e
  | unnamed {record : Record} {entity : EntityType} :
      convertEntry schema element content = .ok record →
      (∀ id, record.get? "id" ≠ some (.string id)) → schema.entity? record.type = some entity →
      Rejected schema accepted element content { cause := .missingField entity.name "id" }
  | ofCatalog {id : String} {record : Record} {entity : EntityType} :
      Converts schema element content (id, record) → schema.entity? record.type = some entity →
      entity.isCatalog = true → Rejected schema accepted element content
        { cause := .invalidSchema ("cannot register instance " ++ Text.quoted id ++
            " of catalog type " ++ entity.name)
          context := some { entity := some entity.name, instanceId := some id } }
  | repeated {id : String} {record : Record} {entity : EntityType} :
      Converts schema element content (id, record) → schema.entity? record.type = some entity →
      (record.type, id) ∈ accepted.map (fun (id, record) => (record.type, id)) →
      Rejected schema accepted element content
        { cause := .duplicateInstance entity.name id
          context := some { entity := some entity.name, instanceId := some id } }
  | noRoom {id : String} {record : Record} {entity : EntityType} :
      Converts schema element content (id, record) → schema.entity? record.type = some entity →
      InstanceRegistry.capacity ≤ (accepted.filter (·.2.type == record.type)).length →
      Rejected schema accepted element content
        { cause := .internal ("too many instances of " ++ entity.name)
          context := some { entity := some entity.name, instanceId := some id } }

theorem convert_embedded (element : EntityId) (content : Json) :
    convert schema (.embedded element) content =
      (convertEntry schema element content).map Record.toValue := by
  rw [convert, if_neg (by simp [FieldType.isNullable])]
  unfold convertEntry
  cases content with
  | object members =>
      simp only [FieldType.unwrap]
      cases selectConcrete schema element members with
      | error e => rfl
      | ok concrete =>
          change (convertRecord schema concrete members >>= _) =
            (convertRecord schema concrete members).map _
          cases convertRecord schema concrete members <;> rfl
  | _ => rfl

theorem onItsOwn_convertEntry (element : EntityId) (content : Json) :
    FailsOnItsOwn (convertEntry schema element content) := by
  intro e failed
  have converts : convert schema (.embedded element) content = .error e := by
    rw [convert_embedded, failed]
    rfl
  exact onItsOwn_convert (.embedded element) content e converts

/-- An entry that is rejected has no source yet. -/
theorem Rejected.source {content : Json} (rejected : Rejected schema accepted element content e) :
    e.piece? .source = none := by
  cases rejected with
  | unconverted failed => exact (onItsOwn_convertEntry element content e failed).source
  | unnamed | ofCatalog | repeated | noRoom => rfl

/-- An entry that is not converted is rejected for that. -/
theorem Rejected.eq_of_unconverted {content : Json} {e' : Error}
    (rejected : Rejected schema accepted element content e)
    (failed : convertEntry schema element content = .error e') : e = e' := by
  cases rejected with
  | unconverted failed' => exact Except.error.inj (failed'.symm.trans failed)
  | unnamed converted =>
      rw [converted] at failed
      cases failed
  | ofCatalog converts | repeated converts | noRoom converts =>
      rw [converts.1] at failed
      cases failed

/-- An id is taken by an accepted entry. -/
theorem Takes.isSome_ordinalOf?_iff (takes : Takes schema accepted r) {type : EntityId}
    {id : String} : (r.ordinalOf? type id).isSome = true ↔
      (type, id) ∈ accepted.map fun (id, record) => (record.type, id) := by
  rw [← InstanceRegistry.map_numbered accepted, List.map_map, List.mem_map, Option.isSome_iff_exists]
  simp only [takes.keeps.ordinalOf?_iff]
  constructor
  · rintro ⟨_, i, mem, type, id, _⟩
    exact ⟨i, mem, Prod.ext type id⟩
  · rintro ⟨i, mem, same⟩
    exact ⟨_, i, mem, (Prod.mk.inj same).1, (Prod.mk.inj same).2, rfl⟩

theorem checkKind_eq_error {entity : EntityType} {id : String} (concrete : entity.isAbstract = false)
    (failed : InstanceRegistry.checkKind entity id = .error e) : entity.isCatalog = true ∧
      e = { cause := .invalidSchema ("cannot register instance " ++ Text.quoted id ++
        " of catalog type " ++ entity.name) } := by
  unfold InstanceRegistry.checkKind at failed
  rw [concrete] at failed
  cases isCatalog : entity.isCatalog with
  | false => simp [isCatalog] at failed
  | true => simpa [isCatalog, fail, String.append_assoc, eq_comm] using failed

theorem checkId_eq_error {entity : EntityType} {type : EntityId} {id : String}
    (failed : r.checkId entity type id = .error e) : (r.ordinalOf? type id).isSome = true ∧
      e = { cause := .duplicateInstance entity.name id } := by
  unfold InstanceRegistry.checkId at failed
  split at failed
  · rename_i taken
    exact ⟨taken, (Except.error.inj failed).symm⟩
  · cases failed

theorem nextOrdinal_eq_error {entity : EntityType} {type : EntityId}
    (failed : r.nextOrdinal entity type = .error e) :
    InstanceRegistry.capacity ≤ (r.instancesOf type).length ∧
      e = { cause := .internal ("too many instances of " ++ entity.name) } := by
  unfold InstanceRegistry.nextOrdinal at failed
  split at failed
  · cases failed
  · rename_i full
    exact ⟨Nat.le_of_not_lt full, (Except.error.inj failed).symm⟩

/-- An entry that has an id is rejected by the tests of its registration. -/
theorem Takes.rejected_register (takes : Takes schema accepted r) {content : Json} {id : String}
    {record : Record} {entity : EntityType} (converts : Converts schema element content (id, record))
    (declared : schema.entity? record.type = some entity) (concrete : entity.isAbstract = false)
    (failed : r.register schema id record = .error e) :
    Rejected schema accepted element content
      (e.within { entity := some entity.name, instanceId := some id }) := by
  have refused : ∃ r', (InstanceRegistry.Update.register schema id record).run r = .error e r' := by
    unfold InstanceRegistry.register at failed
    split at failed
    · cases failed
    · rename_i e' r' run
      cases failed
      exact ⟨r', run⟩
  obtain ⟨r', run⟩ := refused
  unfold InstanceRegistry.Update.register at run
  simp only [run_bind_eq_error_iff, run_test_eq_ok_iff, run_test_eq_error_iff] at run
  rcases run with ⟨closed, _⟩ | ⟨_, _, ⟨_, rfl⟩, ⟨unknown, _⟩ | ⟨entity', _, ⟨found, rfl⟩, run⟩⟩
  · rw [InstanceRegistry.checkOpen_eq_ok_iff.mpr takes.isOpen] at closed
    cases closed
  · rw [Registry.get_eq_ok_iff.mpr declared] at unknown
    cases unknown
  · obtain rfl : entity = entity' :=
      Option.some.inj (declared.symm.trans (Registry.get_eq_ok_iff.mp found))
    rcases run with ⟨kind, _⟩ | ⟨_, _, ⟨_, rfl⟩, ⟨taken, _⟩ | ⟨_, _, ⟨_, rfl⟩, opened |
      ⟨_, _, opened, ⟨full, _⟩ | ⟨_, _, _, stored | ⟨_, _, _, listed | ⟨_, _, _, done⟩⟩⟩⟩⟩⟩
    · obtain ⟨isCatalog, rfl⟩ := checkKind_eq_error concrete kind
      exact .ofCatalog converts declared isCatalog
    · obtain ⟨known, rfl⟩ := checkId_eq_error taken
      exact .repeated converts declared (takes.isSome_ordinalOf?_iff.mp known)
    · cases opened
    · cases opened
      obtain ⟨crowded, rfl⟩ := nextOrdinal_eq_error full
      rw [InstanceRegistry.instancesOf_openBucket, ← List.length_map (fun i => (i.id, i.record)),
        takes.keeps.map_instancesOf] at crowded
      exact .noRoom converts declared crowded
    · cases stored
    · cases listed
    · cases done

theorem Takes.rejected (takes : Takes schema accepted r) (consistent : schema.Consistent)
    {entry : String × Json} (failed : registerEntry schema element r entry = .error e) :
    ∃ inner, Rejected schema accepted element entry.2 inner ∧
      e = inner.within { source := some entry.1 } := by
  obtain ⟨inner, inside, rfl⟩ := inContext_eq_error_iff.mp failed
  refine ⟨inner, ?_, rfl⟩
  rcases bind_eq_error_iff.mp inside with unconverted | ⟨record, converted, failed⟩
  · exact .unconverted unconverted
  · obtain ⟨entity, declared, concrete⟩ := convertEntry_ok consistent converted
    rcases bind_eq_error_iff.mp failed with unknown | ⟨entity', found, failed⟩
    · rw [Registry.get_eq_ok_iff.mpr declared] at unknown
      cases unknown
    · cases (Registry.get_eq_ok_iff.mp found).symm.trans declared
      split at failed
      · rename_i absent
        cases failed
        refine .unnamed converted (fun id given => ?_) declared
        rw [bind_string?_eq_some_iff.mpr given] at absent
        cases absent
      · rename_i id given
        have converts : Converts schema element entry.2 (id, record) :=
          ⟨converted, bind_string?_eq_some_iff.mp given⟩
        rcases bind_eq_error_iff.mp failed with refused | ⟨_, _, done⟩
        · obtain ⟨cause, registering, rfl⟩ := inContext_eq_error_iff.mp refused
          exact takes.rejected_register converts declared concrete registering
        · cases done

/-! ### The entry that a load stops at -/

/-- The error of a field of the catalog that is no list of entities. -/
def notListError (schema : Registry) (catalog : EntityType) (field : Field) : Error :=
  { cause := .invalidSchema ("catalog field " ++ catalog.name ++ "." ++ field.name ++
      " must be a list of entities, not " ++ schema.describe field.type) }

theorem catalogElement_eq_error {field : Field}
    (failed : catalogElement schema catalog field = .error e) :
    (∀ element, ¬ field.type.ListsEntities element) ∧ e = notListError schema catalog field := by
  constructor
  · intro element lists
    rw [catalogElement_eq_ok_iff.mpr lists] at failed
    cases failed
  · unfold catalogElement at failed
    dsimp only at failed
    split at failed
    · cases failed
    · exact (Except.error.inj failed).symm

/-- Merged lists are not registered when a field is no list of entities, or for the first entry that
is not registered. -/
theorem exists_of_foldlM_registerField_eq_error {parts : List (Field × Entries)}
    (failed : parts.foldlM (registerField schema catalog) r = .error e) :
    (∃ part ∈ parts, catalogElement schema catalog part.1 = .error e) ∨
      ∃ before item after middle element,
        (parts.flatMap fun part => part.2.map (part.1, ·)) = before ++ item :: after ∧
        before.foldlM (registerFor schema catalog) r = .ok middle ∧
        item.1.type.ListsEntities element ∧ registerEntry schema element middle item.2 = .error e := by
  induction parts generalizing r with
  | nil => cases failed
  | cons part rest ih =>
      obtain ⟨field, entries⟩ := part
      rw [List.foldlM_cons] at failed
      rw [List.flatMap_cons]
      rcases bind_eq_error_iff.mp failed with here | ⟨middle, first, later⟩
      · rcases bind_eq_error_iff.mp here with noList | ⟨element, found, _⟩
        · exact .inl ⟨_, List.mem_cons_self, noList⟩
        · rw [registerField_eq entries found] at here
          obtain ⟨before, item, after, middle, split, earlier, refused⟩ :=
            exists_split_of_foldlM_eq_error here
          have ofField : item.1 = field := by
            have mem : item ∈ entries.map (field, ·) := by rw [split]; simp
            obtain ⟨_, _, rfl⟩ := List.mem_map.mp mem
            rfl
          rw [registerFor, ofField, found] at refused
          refine .inr ⟨before, item, after ++ rest.flatMap fun part => part.2.map (part.1, ·),
            middle, element, ?_, earlier, ?_, refused⟩
          · rw [split, List.append_assoc, List.cons_append]
          · rw [ofField]
            exact catalogElement_eq_ok_iff.mp found
      · obtain ⟨element, found, _⟩ := bind_eq_ok_iff.mp first
        rw [registerField_eq entries found] at first
        rcases ih later with ⟨part, mem, noList⟩ |
          ⟨before, item, after, last, element', split, earlier, lists, refused⟩
        · exact .inl ⟨part, List.mem_cons_of_mem _ mem, noList⟩
        · refine .inr ⟨entries.map (field, ·) ++ before, item, after, last, element', ?_, ?_, lists,
            refused⟩
          · rw [split, List.append_assoc]
          · rw [List.foldlM_append]
            exact bind_eq_ok_iff.mpr ⟨middle, first, earlier⟩

/-- A load stops at the entry `w`, where `element` is expected: the entries in front of it are
converted to the accepted ones and registered, and it is rejected. -/
structure StopsAt (schema : Registry) (catalog : EntityType) (documents : List Document)
    (before : List (Field × Written)) (accepted : List (String × Record)) (element : EntityId)
    (w : Written) (inner : Error) : Prop where
  next : ∃ field after, ordered catalog (written documents) = before ++ (field, w) :: after ∧
    field.type.ListsEntities element
  converted : List.Forall₂ (ConvertsFor schema) before accepted
  registered : ∃ r, (before.map fun (field, w) => (field, w.source, w.content)).foldlM
    (registerFor schema catalog) {} = .ok r ∧ Takes schema accepted r
  rejected : Rejected schema accepted element w.content inner

/-- Documents that fit and are not loaded stop the load at an entry, unless a field of the catalog is
no list of entities. -/
theorem exists_stopsAt (reachable : schema.Reachable) (hasCatalog : schema.catalog? = some catalog)
    (fits : ∀ document ∈ documents, document.Fits catalog)
    (failed : load schema documents = .error e) :
    (∃ field ∈ catalog.fields, (∀ element, ¬ field.type.ListsEntities element) ∧
        e = notListError schema catalog field) ∨
      ∃ before accepted element w inner,
        StopsAt schema catalog documents before accepted element w inner ∧
        e = inner.within { source := some w.source } := by
  have catalogFound : catalogOf schema = .ok catalog := by rw [catalogOf, hasCatalog]
  have differ := catalog_differ reachable hasCatalog
  obtain ⟨merged, merging⟩ := exists_merge_eq_ok fits
  unfold load at failed
  rcases bind_eq_error_iff.mp failed with absent | ⟨_, found, failed⟩
  · rw [catalogFound] at absent
    cases absent
  cases catalogFound.symm.trans found
  rcases bind_eq_error_iff.mp failed with unmerged | ⟨_, merged', failed⟩
  · rw [merging] at unmerged
    cases unmerged
  cases merging.symm.trans merged'
  rcases bind_eq_error_iff.mp failed with run | ⟨_, _, done⟩
  · rw [zip_merge differ merging] at run
    rcases exists_of_foldlM_registerField_eq_error run with ⟨part, mem, noList⟩ |
      ⟨before, item, after, middle, element, split, earlier, lists, refused⟩
    · obtain ⟨field, listed, rfl⟩ := List.mem_map.mp mem
      exact .inl ⟨field, listed, catalogElement_eq_error noList⟩
    · have entrywise : (ordered catalog (written documents)).map
          (fun (field, w) => (field, w.source, w.content)) = before ++ item :: after := by
        rw [← split, ordered, List.flatMap_map, List.map_flatMap]
        simp only [List.map_map, Function.comp_def]
      obtain ⟨front, rest, whole, rfl, others⟩ := List.map_eq_append_iff.mp entrywise
      obtain ⟨⟨field, w⟩, back, rfl, rfl, rfl⟩ := List.map_eq_cons_iff.mp others
      obtain ⟨accepted, converted, taken⟩ := (takes_empty schema).registerAll earlier
      obtain ⟨inner, rejected, rfl⟩ := taken.rejected reachable.consistent refused
      exact .inr ⟨front, accepted, element, w, inner,
        ⟨⟨field, back, whole, lists⟩, converted, ⟨middle, earlier, taken⟩, rejected⟩, rfl⟩
  · cases done

namespace StopsAt

variable {before : List (Field × Written)} {w : Written} {inner : Error}
  (stops : StopsAt schema catalog documents before accepted element w inner)

include stops

/-- The error names the document that the entry comes from. -/
theorem source : (inner.within { source := some w.source }).piece? .source = some w.source := by
  rw [Error.piece?_within, stops.rejected.source]
  rfl

/-- A repeated id is blamed on the later entry: one in front of it has the type and the id. -/
theorem repeated {name id : String} (cause : inner.cause = .duplicateInstance name id) :
    ∃ record, Converts schema element w.content (id, record) ∧
      ∃ earlier ∈ before, ∃ record', ConvertsFor schema earlier (id, record') ∧
        record'.type = record.type := by
  cases rejected : stops.rejected with
  | unconverted failed => exact ((onItsOwn_convertEntry _ _ _ failed).cause name id cause).elim
  | unnamed | ofCatalog | noRoom => cases cause
  | @repeated id' record entity converts declared known =>
      obtain rfl : id' = id := (Cause.duplicateInstance.inj cause).2
      obtain ⟨new, mem, same⟩ := List.mem_map.mp known
      obtain ⟨earlier, front, converted⟩ := (exists_of_forall₂ stops.converted).2 new mem
      obtain ⟨type, rfl⟩ := Prod.mk.inj same
      exact ⟨record, converts, earlier, front, new.2, converted, type⟩

/-- What a conversion inside the entry has recorded is kept, and the rest is filled in from the
inside out. -/
theorem piece?_eq {type : FieldType} {json : Json} {path : List Context} {nested : Error}
    (comes : ComesTo schema type json (.embedded element) w.content path)
    (failed : convert schema type json = .error nested) (piece : Piece) :
    (inner.within { source := some w.source }).piece? piece =
      (nested.piece? piece).or (recorded? (path ++ [{ source := some w.source }]) piece) := by
  have whole := comes.fails failed
  rw [convert_embedded] at whole
  have unconverted : convertEntry schema element w.content =
      .error (path.foldl Error.within nested) := by
    cases converted : convertEntry schema element w.content with
    | ok record =>
        rw [converted] at whole
        cases whole
    | error e =>
        rw [converted] at whole
        exact congrArg Except.error (Except.error.inj whole)
  have same := stops.rejected.eq_of_unconverted unconverted
  rw [← Error.piece?_foldl_within, List.foldl_append, ← same]
  rfl

end StopsAt

/-- **A failed load blames the right document.** The first document that does not fit the catalog is
named. If all fit, either a field of the catalog is no list of entities, or the load stops at the
first entry, in the order of the catalog, that is not converted or not registered behind those in
front of it, and the document that this entry comes from is named: in particular, a repeated id is
blamed on the later of the two entries. What the failing conversion has recorded inside the entry is
kept. -/
theorem load_blames (reachable : schema.Reachable) (hasCatalog : schema.catalog? = some catalog)
    (failed : load schema documents = .error e) :
    (∀ before document after, documents = before ++ document :: after →
        (∀ earlier ∈ before, earlier.Fits catalog) → ¬ document.Fits catalog →
        Misfit catalog document e ∧ e.piece? .source = some document.source) ∧
      ((∀ document ∈ documents, document.Fits catalog) →
        (∃ field ∈ catalog.fields, (∀ element, ¬ field.type.ListsEntities element) ∧
          e = notListError schema catalog field) ∨
        ∃ before accepted element w inner,
          StopsAt schema catalog documents before accepted element w inner ∧
          e = inner.within { source := some w.source } ∧ e.piece? .source = some w.source ∧
          (∀ name id, e.cause = .duplicateInstance name id →
            ∃ record, Converts schema element w.content (id, record) ∧
              ∃ earlier ∈ before, ∃ record', ConvertsFor schema earlier (id, record') ∧
                record'.type = record.type) ∧
          ∀ type json path nested, ComesTo schema type json (.embedded element) w.content path →
            convert schema type json = .error nested → ∀ piece, e.piece? piece =
              (nested.piece? piece).or
                (recorded? (path ++ [{ source := some w.source }]) piece)) := by
  constructor
  · rintro before document after rfl fits misfits
    have misfit := misfit_of_load hasCatalog fits misfits failed
    exact ⟨misfit, misfit.source⟩
  · intro fits
    rcases exists_stopsAt reachable hasCatalog fits failed with noList |
      ⟨before, accepted, element, w, inner, stops, rfl⟩
    · exact .inl noList
    · exact .inr ⟨before, accepted, element, w, inner, stops, rfl, stops.source,
        fun name id cause => stops.repeated cause,
        fun type json path nested comes failed => stops.piece?_eq comes failed⟩

/-- Heroes with their stats as a record inside. -/
def guilds : Registry := Registry.run [
  .declare { name := "StatsData", fields := [{ name := "power", type := .scalar .int }] },
  .declare {
    name := "HeroData"
    fields := [
      { name := "stats", type := .embedded ⟨0⟩ },
      { name := "id", type := .scalar .string }] },
  .declare {
    name := "GameCatalog"
    root := some .catalog
    fields := [{ name := "heroes", type := .list (.embedded ⟨1⟩) }] }]

/-- A hero with an id and a power. -/
def hero (id : String) (power : Json) : Json :=
  .object [("id", .string id), ("stats", .object [("power", power)])]

/-- A hero whose power is a text, behind one that is well. -/
def guildFiles : List Document := [
  { source := "a.json", content := .object [("heroes", .array [hero "kai" (.integer 3)])] },
  { source := "b.json", content := .object [("heroes", .array [hero "mia" (.string "high")])] }]

/-- The conversion of the second hero comes to that of the stats. -/
theorem comesTo_stats : ComesTo guilds (.embedded ⟨0⟩) (.object [("power", .string "high")])
    (.embedded ⟨1⟩) (hero "mia" (.string "high"))
    [{ entity := some "HeroData", field := some "stats" }] := by
  have declared : (guilds.entity? ⟨1⟩).map (fun entity => (entity.name, entity.fields)) = some
      ("HeroData", [{ name := "stats", type := .embedded ⟨0⟩ },
        { name := "id", type := .scalar .string }]) := by decide +kernel
  obtain ⟨entity, found, read⟩ := Option.map_eq_some_iff.mp declared
  obtain ⟨name, fields⟩ := Prod.mk.inj read
  have unwrapped : (FieldType.embedded ⟨1⟩).unwrap = .embedded ⟨1⟩ := rfl
  have keys : checkKeys entity [("id", .string "mia"),
      ("stats", .object [("power", .string "high")])] = .ok () := by
    simp [checkKeys, EntityType.field?, fields, findField?]
  have first : entity.fields = [] ++ _ :: _ := fields
  rw [← name]
  change ComesTo guilds _ _ _ (.object _) ([] ++ [_])
  exact .field unwrapped (by decide +kernel) found keys first rfl rfl (by simp) .here

theorem load_blames_guilds : ∃ catalog e, guilds.catalog? = some catalog ∧
    load guilds guildFiles = .error e ∧ e.piece? .entity = some "StatsData" ∧
    (∃ before accepted element w inner,
      StopsAt guilds catalog guildFiles before accepted element w inner ∧ w.source = "b.json") ∧
    ComesTo guilds (.embedded ⟨0⟩) (.object [("power", .string "high")])
      (.embedded ⟨1⟩) (hero "mia" (.string "high"))
      [{ entity := some "HeroData", field := some "stats" }] := by
  obtain ⟨catalog, hasCatalog, keyed⟩ : ∃ catalog, guilds.catalog? = some catalog ∧
      (catalog.field? "heroes").isSome = true :=
    Option.map_eq_some_iff.mp (by decide +kernel)
  have computed : (load guilds guildFiles).map (fun _ => ()) = .error
      { cause := .valueMismatch "int" "string"
        context := some
          { entity := some "StatsData", field := some "power", source := some "b.json" } } := by
    decide +kernel
  have fits : ∀ document ∈ guildFiles, document.Fits catalog := by
    have one : ∀ source entries, (Document.mk source (.object [("heroes", .array entries)])).Fits
        catalog := by
      intro source entries
      refine ⟨_, rfl, fun key content mem => ?_⟩
      cases List.mem_singleton.mp mem
      exact ⟨Option.isSome_iff_exists.mp keyed, entries, rfl⟩
    exact List.forall_mem_cons.mpr ⟨one _ _, List.forall_mem_singleton.mpr (one _ _)⟩
  cases run : load guilds guildFiles with
  | ok r =>
      rw [run] at computed
      cases computed
  | error e =>
      rw [run] at computed
      obtain rfl : e = _ := Except.error.inj computed
      refine ⟨catalog, _, hasCatalog, rfl, rfl, ?_, comesTo_stats⟩
      rcases (load_blames ⟨_, rfl⟩ hasCatalog run).2 fits with ⟨field, _, _, noList⟩ |
        ⟨before, accepted, element, w, inner, stops, _, source, _⟩
      · cases congrArg Error.cause noList
      · exact ⟨before, accepted, element, w, inner, stops, (Option.some.inj source).symm⟩

end EntityForge.Loading
