import EntityForge.Loading.Documents
import EntityForge.Proofs.Schema.Fields

/-!
What merging the documents comes to. `written` lists all entries in the order in which the documents
write them; merging puts each behind the others of its field (`merge_ok`, `zip_merge`), so that the
merged lists, one after the other, are the entries in the order of the catalog, and those of one
field in the order of the documents (`ordered`). No entry is lost, and none is there twice
(`ordered_perm`).
-/

namespace EntityForge.Loading

/-- An entry as a document writes it. -/
structure Written where
  source : String
  /-- The key of the list that it stands in. -/
  key : String
  content : Json

/-- The entries of a member of a document. -/
def writtenIn (source : String) (member : String × Json) : List Written :=
  (member.2.items?.getD []).map ({ source, key := member.1, content := · })

/-- The entries of the documents, in the order in which they are written. -/
def written (documents : List Document) : List Written :=
  documents.flatMap fun document =>
    (document.content.members?.getD []).flatMap (writtenIn document.source)

/-- The entries in the order of the fields of the catalog, those of one field as they are written. -/
def ordered (catalog : EntityType) (entries : List Written) : List (Field × Written) :=
  catalog.fields.flatMap fun field => (entries.filter (·.key == field.name)).map (field, ·)

/-- A document is an object of lists for fields of the catalog. -/
def Document.Fits (document : Document) (catalog : EntityType) : Prop :=
  ∃ members, document.content = .object members ∧ ∀ key content, (key, content) ∈ members →
    (∃ field, catalog.field? key = some field) ∧ ∃ entries, content = .array entries

variable {catalog : EntityType} {merged merged' : List Entries}

/-! ### Places of fields -/

theorem findIdx?_isSome_iff {key : String} :
    (catalog.fields.findIdx? (·.name == key)).isSome = true ↔
      ∃ field, catalog.field? key = some field := by
  rw [List.findIdx?_isSome, ← Option.isSome_iff_exists, EntityType.field?, findField?,
    List.find?_isSome, List.any_eq_true]

/-- Of different names, each has its own place. -/
theorem findIdx?_eq_some_iff (differ : (catalog.fields.map Field.name).Nodup) {key : String}
    {k : Nat} : catalog.fields.findIdx? (·.name == key) = some k ↔
      ∃ field, catalog.fields[k]? = some field ∧ field.name = key := by
  rw [List.findIdx?_eq_some_iff_getElem]
  constructor
  · rintro ⟨inside, same, _⟩
    exact ⟨catalog.fields[k], List.getElem?_eq_getElem inside, beq_iff_eq.mp same⟩
  · rintro ⟨field, here, rfl⟩
    obtain ⟨inside, rfl⟩ := List.getElem?_eq_some_iff.mp here
    refine ⟨inside, beq_self_eq_true _, fun j before same => ?_⟩
    have apart := List.pairwise_iff_getElem.mp (List.pairwise_map.mp differ) j k
      (Nat.lt_trans before inside) inside before
    exact apart (beq_iff_eq.mp same)

/-! ### Merging -/

/-- Behind the entries of each field, `merged'` has the further ones. -/
def Adds (catalog : EntityType) (merged : List Entries) (further : List Written)
    (merged' : List Entries) : Prop :=
  ∀ k, merged'[k]? = merged[k]?.map (· ++
    (further.filter fun w => catalog.fields.findIdx? (·.name == w.key) = some k).map
      fun w => (w.source, w.content))

theorem Adds.none (catalog : EntityType) (merged : List Entries) : Adds catalog merged [] merged := by
  intro k
  simp

theorem Adds.both {further further' : List Written} {merged'' : List Entries}
    (first : Adds catalog merged further merged') (second : Adds catalog merged' further' merged'') :
    Adds catalog merged (further ++ further') merged'' := by
  intro k
  rw [second k, first k, Option.map_map, List.filter_append, List.map_append]
  refine congrArg (Option.map · _) (funext fun entries => ?_)
  rw [Function.comp_apply, List.append_assoc]

theorem mergeMember_eq_ok_iff {source key : String} {content : Json} :
    mergeMember catalog source merged (key, content) = .ok merged' ↔
      ∃ k entries, catalog.fields.findIdx? (·.name == key) = some k ∧ content = .array entries ∧
        merged' = merged.modify k (· ++ entries.map (source, ·)) := by
  unfold mergeMember
  dsimp only
  cases catalog.fields.findIdx? (·.name == key) with
  | none => simp [inContext, fail, Except.mapError]
  | some k =>
      cases content <;> simp [inContext, fail, Except.mapError, eq_comm]

/-- The entries of a member are put behind those of its field. -/
theorem adds_of_mergeMember {source : String} {member : String × Json}
    (run : mergeMember catalog source merged member = .ok merged') :
    Adds catalog merged (writtenIn source member) merged' := by
  obtain ⟨key, content⟩ := member
  obtain ⟨place, entries, found, rfl, rfl⟩ := mergeMember_eq_ok_iff.mp run
  intro k
  have here : ∀ w ∈ writtenIn source (key, .array entries), w.key = key := by
    intro w mem
    obtain ⟨_, _, rfl⟩ := List.mem_map.mp mem
    rfl
  rw [List.getElem?_modify, Option.map_eq_map]
  refine congrArg (Option.map · _) (funext fun before => ?_)
  by_cases same : place = k
  · have inside : (writtenIn source (key, .array entries)).filter
        (fun w => catalog.fields.findIdx? (·.name == w.key) = some k) =
          writtenIn source (key, .array entries) := by
      refine List.filter_eq_self.mpr fun w mem => ?_
      rw [here w mem, found, same, decide_eq_true_eq]
    have pairs : (writtenIn source (key, .array entries)).map (fun w => (w.source, w.content)) =
        entries.map (source, ·) := List.map_map
    rw [if_pos same, inside, pairs]
  · have outside : (writtenIn source (key, .array entries)).filter
        (fun w => catalog.fields.findIdx? (·.name == w.key) = some k) = [] := by
      refine List.filter_eq_nil_iff.mpr fun w mem => ?_
      rw [here w mem, found, decide_eq_true_eq, Option.some.injEq]
      exact same
    rw [if_neg same, outside, List.map_nil, List.append_nil]

theorem fits_of_mergeDocument {document : Document}
    (run : mergeDocument catalog merged document = .ok merged') : document.Fits catalog := by
  unfold mergeDocument at run
  split at run
  · rename_i members object
    refine ⟨members, object, fun key content inside => ?_⟩
    obtain ⟨_, _, step⟩ := exists_step_of_foldlM_eq_ok run (key, content) inside
    obtain ⟨k, entries, found, array, _⟩ := mergeMember_eq_ok_iff.mp step
    exact ⟨findIdx?_isSome_iff.mp (found ▸ rfl), entries, array⟩
  · cases run

/-- A document that is merged fits, and its entries are put behind the earlier ones. -/
theorem merge_ok {documents : List Document} (run : merge catalog documents = .ok merged) :
    (∀ document ∈ documents, document.Fits catalog) ∧
      Adds catalog (catalog.fields.map fun _ => []) (written documents) merged := by
  refine ⟨fun document mem => ?_, ?_⟩
  · obtain ⟨before, after, run⟩ := exists_step_of_foldlM_eq_ok run document mem
    exact fits_of_mergeDocument run
  · refine foldlM_collects (Adds.none catalog) (fun _ _ _ _ _ => Adds.both) ?_ run
    intro document _ before after run
    unfold mergeDocument at run
    split at run
    · rename_i members object
      rw [object]
      exact foldlM_collects (f := writtenIn document.source) (Adds.none catalog)
        (fun _ _ _ _ _ => Adds.both) (fun member _ _ _ => adds_of_mergeMember) run
    · cases run

/-- Documents that fit are merged. -/
theorem exists_merge_eq_ok {documents : List Document}
    (fits : ∀ document ∈ documents, document.Fits catalog) :
    ∃ merged, merge catalog documents = .ok merged := by
  refine exists_foldlM_eq_ok (fun before document mem => ?_) _
  obtain ⟨members, object, lists⟩ := fits document mem
  unfold mergeDocument
  rw [object]
  refine exists_foldlM_eq_ok (fun before (key, content) inside => ?_) before
  obtain ⟨field, entries, rfl⟩ := lists key content inside
  obtain ⟨k, found⟩ := Option.isSome_iff_exists.mp (findIdx?_isSome_iff.mpr field)
  exact ⟨_, mergeMember_eq_ok_iff.mpr ⟨k, entries, found, rfl, rfl⟩⟩

/-! ### The order of the entries -/

/-- The merged entries of a field are those that are written for it. -/
theorem zip_merge {documents : List Document} (differ : (catalog.fields.map Field.name).Nodup)
    (run : merge catalog documents = .ok merged) :
    catalog.fields.zip merged = catalog.fields.map fun field =>
      (field, ((written documents).filter (·.key == field.name)).map
        fun w => (w.source, w.content)) := by
  have lists : merged = catalog.fields.map fun field =>
      ((written documents).filter (·.key == field.name)).map fun w => (w.source, w.content) := by
    refine List.ext_getElem? fun k => ?_
    rw [(merge_ok run).2 k, List.getElem?_map, List.getElem?_map]
    cases here : catalog.fields[k]? with
    | none => rfl
    | some field =>
        have placed : (written documents).filter
            (fun w => catalog.fields.findIdx? (·.name == w.key) = some k) =
              (written documents).filter (·.key == field.name) := by
          refine List.filter_congr fun w _ => ?_
          rw [Bool.eq_iff_iff, decide_eq_true_eq, findIdx?_eq_some_iff differ, here, beq_iff_eq]
          simp [eq_comm]
        rw [placed]
        rfl
  rw [lists, List.map_prod_left_eq_zip]

/-- The parts of a list by different keys are the items of these keys. -/
theorem flatMap_filter_perm {keys : List String} (differ : keys.Nodup) (entries : List Written) :
    (keys.flatMap fun key => entries.filter (·.key == key)).Perm
      (entries.filter (·.key ∈ keys)) := by
  induction keys with
  | nil => simp
  | cons key rest ih =>
      obtain ⟨new, differ⟩ := List.nodup_cons.mp differ
      have first : (entries.filter (·.key ∈ key :: rest)).filter (·.key == key) =
          entries.filter (·.key == key) := by
        rw [List.filter_filter]
        refine List.filter_congr fun w _ => ?_
        by_cases same : w.key = key <;> simp [same]
      have others : (entries.filter (·.key ∈ key :: rest)).filter (fun w => !(w.key == key)) =
          entries.filter (·.key ∈ rest) := by
        rw [List.filter_filter]
        refine List.filter_congr fun w _ => ?_
        by_cases same : w.key = key
        · simp [same, new]
        · simp [same]
      rw [List.flatMap_cons]
      refine ((ih differ).append_left _).trans ?_
      rw [← first, ← others]
      exact List.filter_append_perm _ _

/-- **No entry is lost, and none is there twice.** -/
theorem ordered_perm {entries : List Written} (differ : (catalog.fields.map Field.name).Nodup)
    (known : ∀ w ∈ entries, w.key ∈ catalog.fields.map Field.name) :
    ((ordered catalog entries).map Prod.snd).Perm entries := by
  have parts : (ordered catalog entries).map Prod.snd =
      (catalog.fields.map Field.name).flatMap fun key => entries.filter (·.key == key) := by
    rw [ordered, List.map_flatMap, List.flatMap_map]
    refine List.flatMap_congr fun field _ => ?_
    rw [List.map_map]
    exact List.map_id _
  have all : entries.filter (·.key ∈ catalog.fields.map Field.name) = entries :=
    List.filter_eq_self.mpr fun w mem => decide_eq_true (known w mem)
  rw [parts]
  exact (flatMap_filter_perm differ entries).trans (List.Perm.of_eq all)

end EntityForge.Loading
