import EntityForge.Proofs.Loading.Documents
import EntityForge.Proofs.Loading.Parts
import EntityForge.Proofs.Schema.Inheritance
import EntityForge.Proofs.SortedMaps

/-!
What conversion gives. `Loaded` says what a converted value looks like: along its declared type,
with every record complete, its constants as declared, and absent values where an object leaves
fields out. Conversion gives such values only (`loaded_of_convert`).
-/

namespace EntityForge.Loading

variable {schema : Registry}

/-- The values of the fields of a record of a type: exactly its effective fields are set, and the
constant ones to their values. -/
structure Complete (entity : EntityType) (fields : List (String × Value)) : Prop where
  isSome_iff : ∀ name, (SortedMap.find? compare name fields).isSome = true ↔
    name ∈ entity.fields.map Field.name
  constant : ∀ field ∈ entity.fields, ∀ value, field.presence = .constant value →
    SortedMap.find? compare field.name fields = some value

/-- A value as it is converted where a type is declared. A field of a record that its object leaves
out has its absent value; every other value is converted in turn. -/
inductive Loaded (schema : Registry) : FieldType → Value → Prop where
  | nil {type : FieldType} : type.isNullable = true → Loaded schema type .nil
  | int {type : FieldType} (n : Int) : type.unwrap = .scalar .int → Loaded schema type (.int n)
  | string {type : FieldType} (text : String) : type.unwrap = .scalar .string →
      Loaded schema type (.string text)
  | ref {type : FieldType} {target : EntityId} (r : Reference) : type.unwrap = .reference target →
      Loaded schema type (.ref r)
  | list {type element : FieldType} {items : List Value} : type.unwrap = .list element →
      (∀ item ∈ items, Loaded schema element item) → Loaded schema type (.list items)
  | map {type key inner : FieldType} {entries : List (Value × Value)} :
      type.unwrap = .map key inner → (∀ entry ∈ entries, Loaded schema inner entry.2) →
      Loaded schema type (.map entries)
  | record {type : FieldType} {target actual : EntityId} {entity : EntityType}
      {fields : List (String × Value)} : type.unwrap = .embedded target →
      schema.entity? actual = some entity → entity.isAbstract = false →
      schema.IsOrDescends actual target → Complete entity fields →
      (∀ field ∈ entity.fields, ∀ value,
        SortedMap.find? compare field.name fields = some value →
        absentValue entity field ≠ .ok value → Loaded schema field.type value) →
      Loaded schema type (.record actual fields)

theorem get?_foldl_set_of_notMem {values : List (String × Value)} {name : String}
    (absent : name ∉ values.map Prod.fst) (record : Record) :
    (values.foldl (fun record (name, value) => record.set name value) record).get? name =
      record.get? name := by
  induction values generalizing record with
  | nil => rfl
  | cons pair rest ih =>
      rw [List.map_cons, List.mem_cons, not_or] at absent
      rw [List.foldl_cons, ih absent.2]
      exact (SortedMap.find?_insert pair.1 name pair.2 record.fields).trans (if_neg absent.1)

/-- A record of different names has each of them as it was set. -/
theorem get?_foldl_set {values : List (String × Value)} (nodup : (values.map Prod.fst).Nodup)
    {name : String} {value : Value} (mem : (name, value) ∈ values) (record : Record) :
    (values.foldl (fun record (name, value) => record.set name value) record).get? name =
      some value := by
  induction values generalizing record with
  | nil => cases mem
  | cons pair rest ih =>
      obtain ⟨new, nodup⟩ := List.nodup_cons.mp nodup
      rw [List.foldl_cons]
      rcases List.mem_cons.mp mem with rfl | later
      · rw [get?_foldl_set_of_notMem new]
        exact (SortedMap.find?_insert name name value record.fields).trans (if_pos rfl)
      · exact ih nodup later _

/-- What an object gives for a field: the absent value if it leaves the field out, else what it
writes, which a constant field checks. -/
def Gives (schema : Registry) (members : List (String × Json)) (entity : EntityType) (field : Field)
    (pair : String × Value) : Prop :=
  pair.1 = field.name ∧ (absentValue entity field = .ok pair.2 ∨
    ∃ json, SortedMap.find? compare field.name members = some json ∧
      convert schema field.type json = .ok pair.2 ∧ checkConstant field pair.2 = .ok ())

/-- A converted record sets each field to what the object gives for it. -/
theorem convertRecord_ok {type : EntityId} {members : List (String × Json)} {record : Record}
    (run : convertRecord schema type members = .ok record) :
    ∃ entity values, schema.entity? type = some entity ∧
      List.Forall₂ (Gives schema members entity) entity.fields values ∧
      record = values.foldl (fun record (name, value) => record.set name value) { type } := by
  rw [convertRecord] at run
  obtain ⟨entity, found, run⟩ := bind_eq_ok_iff.mp run
  obtain ⟨_, _, run⟩ := bind_eq_ok_iff.mp run
  obtain ⟨values, converted, last⟩ := bind_eq_ok_iff.mp run
  refine ⟨entity, values, Registry.get_eq_ok_iff.mp found, ?_, (Except.ok.inj last).symm⟩
  refine (mapM_eq_ok_iff.mp converted).imp fun field pair given => ?_
  split at given
  · obtain ⟨value, absent, last⟩ := bind_eq_ok_iff.mp given
    cases last
    exact ⟨rfl, .inl absent⟩
  · obtain ⟨value, absent, last⟩ := bind_eq_ok_iff.mp given
    cases last
    exact ⟨rfl, .inl absent⟩
  · rename_i json _ written
    obtain ⟨value, read, given⟩ := bind_eq_ok_iff.mp (inContext_eq_ok_iff.mp given)
    obtain ⟨_, checked, last⟩ := bind_eq_ok_iff.mp given
    cases last
    exact ⟨rfl, .inr ⟨json, written, read, checked⟩⟩

/-- What is given for a constant field is its value. -/
theorem Gives.constant {members : List (String × Json)} {entity : EntityType} {field : Field}
    {pair : String × Value} (gives : Gives schema members entity field pair) {value : Value}
    (declared : field.presence = .constant value) : pair.2 = value := by
  obtain ⟨_, absent | ⟨_, _, _, checked⟩⟩ := gives
  · rw [absentValue, declared] at absent
    exact (Except.ok.inj absent).symm
  · rw [checkConstant, declared] at checked
    dsimp only at checked
    split at checked
    · rename_i same
      exact same.symm
    · cases checked

section Records

variable {members : List (String × Json)} {entity : EntityType} {values : List (String × Value)}

theorem names_of_gives {fields : List Field}
    (given : List.Forall₂ (Gives schema members entity) fields values) :
    values.map Prod.fst = fields.map Field.name := by
  induction given with
  | nil => rfl
  | cons gives _ ih => rw [List.map_cons, List.map_cons, gives.1, ih]

/-- Each effective field is set to what is given for it. -/
theorem get?_of_gives (start : Record) (nodup : (entity.fields.map Field.name).Nodup)
    (given : List.Forall₂ (Gives schema members entity) entity.fields values) {field : Field}
    (mem : field ∈ entity.fields) : ∃ pair, Gives schema members entity field pair ∧
      (values.foldl (fun record (name, value) => record.set name value) start).get? field.name =
        some pair.2 := by
  obtain ⟨pair, listed, gives⟩ := (exists_of_forall₂ given).1 field mem
  have named : (field.name, pair.2) ∈ values := gives.1 ▸ listed
  exact ⟨pair, gives, get?_foldl_set (names_of_gives given ▸ nodup) named start⟩

/-- A record that starts without fields is complete when each effective field has been set. -/
theorem complete_of_gives (start : Record) (nodup : (entity.fields.map Field.name).Nodup)
    (given : List.Forall₂ (Gives schema members entity) entity.fields values)
    (empty : start.fields = []) : Complete entity
      (values.foldl (fun record (name, value) => record.set name value) start).fields where
  isSome_iff name := by
    constructor
    · intro set
      by_contra absent
      have unset := get?_foldl_set_of_notMem (names_of_gives given ▸ absent) start
      rw [Record.get?, Record.get?, empty] at unset
      rw [unset] at set
      cases set
    · intro mem
      obtain ⟨field, listed, rfl⟩ := List.mem_map.mp mem
      obtain ⟨pair, _, set⟩ := get?_of_gives start nodup given listed
      rw [Record.get?] at set
      rw [set]
      rfl
  constant field mem value declared := by
    obtain ⟨pair, gives, set⟩ := get?_of_gives start nodup given mem
    rw [gives.constant declared] at set
    exact set

end Records

/-- **A record that an object writes is complete.** -/
theorem complete_of_convertRecord (differ : schema.FieldsDiffer) {type : EntityId}
    {members : List (String × Json)} {record : Record}
    (run : convertRecord schema type members = .ok record) :
    record.type = type ∧ ∃ entity, schema.entity? type = some entity ∧
      Complete entity record.fields := by
  refine ⟨type_of_convertRecord run, ?_⟩
  obtain ⟨entity, values, found, given, rfl⟩ := convertRecord_ok run
  exact ⟨entity, found, complete_of_gives { type } (differ type entity found) given rfl⟩

/-- A record of a concrete type is a value of every type that it is or descends from. -/
theorem Loaded.widen {actual target : EntityId} {fields : List (String × Value)} {type : FieldType}
    (loaded : Loaded schema (.embedded actual) (.record actual fields))
    (fits : type.unwrap = .embedded target) (below : schema.IsOrDescends actual target) :
    Loaded schema type (.record actual fields) := by
  cases loaded with
  | record _ found concrete _ complete inside =>
      exact .record fits found concrete below complete inside

/-- A record of a concrete type is loaded if what its fields are converted to is. -/
theorem loaded_of_convertRecord (differ : schema.FieldsDiffer) {type : EntityId}
    {members : List (String × Json)} {record : Record} {entity : EntityType}
    (run : convertRecord schema type members = .ok record)
    (found : schema.entity? type = some entity) (concrete : entity.isAbstract = false)
    (inside : ∀ name json, SortedMap.find? compare name members = some json →
      ∀ type value, convert schema type json = .ok value → Loaded schema type value) :
    Loaded schema (.embedded type) record.toValue := by
  have type_eq := type_of_convertRecord run
  obtain ⟨entity', values, found', given, rfl⟩ := convertRecord_ok run
  cases found.symm.trans found'
  have nodup := differ type entity found
  have complete := complete_of_gives { type } nodup given rfl
  rw [Record.toValue, type_eq]
  refine .record rfl found concrete ⟨entity, found, .inl rfl⟩ complete ?_
  intro field mem value set present
  obtain ⟨pair, ⟨_, gives⟩, set'⟩ := get?_of_gives { type } nodup given mem
  rw [Record.get?, set] at set'
  obtain rfl : value = pair.2 := Option.some.inj set'
  rcases gives with absent | ⟨json, written, read, _⟩
  · exact absurd absent present
  · exact inside field.name json written field.type _ read

/-- What is read is a loaded value if all that its parts are converted to is; a record is read field
by field, and its fields have different names. -/
theorem ReadsAs.loaded (consistent : schema.Consistent) (differ : schema.FieldsDiffer)
    {type : FieldType} {json : Json} {value : Value} (reads : ReadsAs schema type json value)
    (inside : ∀ part, sizeOf part < sizeOf json →
      ∀ type value, convert schema type part = .ok value → Loaded schema type value) :
    Loaded schema type value := by
  cases reads with
  | nil nullable _ => exact .nil nullable
  | int fits _ => exact .int _ fits
  | string fits _ => exact .string _ fits
  | ref fits _ _ => exact .ref _ fits
  | list fits converted =>
      refine .list fits fun value mem => ?_
      obtain ⟨item, here, read⟩ := (exists_of_forall₂ (mapM_eq_ok_iff.mp converted)).2 value mem
      exact inside item (sizeOf_lt_of_item here) _ value read
  | map fits converted =>
      refine .map fits fun entry mem => ?_
      obtain ⟨member, here, given⟩ := (exists_of_forall₂ (mapM_eq_ok_iff.mp converted)).2 entry
        (SortedMap.mem_of_mem_ofList mem)
      obtain ⟨_, _, given⟩ := bind_eq_ok_iff.mp given
      obtain ⟨v, read, last⟩ := bind_eq_ok_iff.mp given
      cases last
      exact inside member.2 (sizeOf_lt_of_member here) _ v read
  | record fits selected converted =>
      obtain ⟨entity, found, concrete, below⟩ := selectConcrete_ok consistent selected
      have loaded := loaded_of_convertRecord differ converted found concrete
        fun name part here => inside part (sizeOf_lt_of_field here)
      rw [Record.toValue, type_of_convertRecord converted] at loaded ⊢
      exact loaded.widen fits ⟨entity, found, below⟩

/-- **Converted values are loaded ones.** The recursion is on the document. -/
theorem loaded_of_convert (consistent : schema.Consistent) (differ : schema.FieldsDiffer)
    {type : FieldType} {json : Json} {value : Value} (run : convert schema type json = .ok value) :
    Loaded schema type value :=
  (readsAs_of_convert run).loaded consistent differ fun _ _ _ _ read =>
    loaded_of_convert consistent differ read
termination_by sizeOf json
decreasing_by assumption

/-- A converted entry is a loaded value of its type. -/
theorem loaded_of_convertEntry (consistent : schema.Consistent) (differ : schema.FieldsDiffer)
    {element : EntityId} {entry : Json} {record : Record}
    (run : convertEntry schema element entry = .ok record) :
    Loaded schema (.embedded record.type) record.toValue := by
  obtain ⟨entity, found, concrete⟩ := convertEntry_ok consistent run
  unfold convertEntry at run
  split at run
  · obtain ⟨type, selected, run⟩ := bind_eq_ok_iff.mp run
    have type_eq := type_of_convertRecord run
    rw [type_eq] at found ⊢
    exact loaded_of_convertRecord differ run found concrete
      fun name json here type value read => loaded_of_convert consistent differ read
  · cases run

end EntityForge.Loading
