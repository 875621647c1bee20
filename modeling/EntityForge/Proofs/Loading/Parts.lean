import EntityForge.Loading.Convert
import EntityForge.Proofs.Results
import EntityForge.Proofs.Schema.Validation

/-!
What a conversion is made of. The items of an array, the members of an object and the fields of a
record are converted one by one, so the conversion of the whole is a list of results
(`convertItems_eq_mapM`, `convertEntries_eq_mapM`, `convertRecord_eq_mapM`). `ReadsAs` has one case
for each form that a conversion can succeed in (`readsAs_of_convert`). Parts are smaller than what they
are part of, which is what ends a recursion on documents.
-/

namespace EntityForge.Loading

variable {schema : Registry}

/-! ### Conversions as lists of results -/

theorem convertItems_eq_mapM (element : FieldType) (items : List Json) :
    convertItems schema element items = items.mapM (convert schema element) := by
  induction items with
  | nil => rw [convertItems, List.mapM_nil]
  | cons item rest ih => rw [convertItems, ih, List.mapM_cons]

/-- The binding that a member gives. -/
def convertMember (schema : Registry) (key inner : FieldType) (member : String × Json) :
    Except Error (Value × Value) := do
  let k ← mapKey key member.1
  let v ← convert schema inner member.2
  return (k, v)

theorem convertEntries_eq_mapM (key inner : FieldType) (members : List (String × Json)) :
    convertEntries schema key inner members = members.mapM (convertMember schema key inner) := by
  induction members with
  | nil => rw [convertEntries, List.mapM_nil]
  | cons member rest ih =>
      rw [convertEntries, ih, List.mapM_cons, convertMember]
      simp only [bind_assoc, pure_bind]

/-- The value that an object gives for a field. -/
def convertField (schema : Registry) (entity : EntityType) (members : List (String × Json))
    (field : Field) : Except Error (String × Value) :=
  match SortedMap.find? compare field.name members with
  | none | some .null => do return (field.name, ← absentValue entity field)
  | some json => inContext { entity := some entity.name, field := some field.name } do
    let value ← convert schema field.type json
    checkConstant field value
    return (field.name, value)

theorem convertRecord_eq_mapM (type : EntityId) (members : List (String × Json)) :
    convertRecord schema type members = (do
      let entity ← schema.get type
      checkKeys entity members
      let fields ← entity.fields.mapM (convertField schema entity members)
      return fields.foldl (fun record (name, value) => record.set name value) { type }) := by
  rw [convertRecord]
  refine bind_congr fun entity => bind_congr fun _ => ?_
  congr 2
  funext field
  rw [convertField]
  cases SortedMap.find? compare field.name members with
  | none => rfl
  | some json => cases json <;> rfl

/-! ### The forms of a conversion -/

/-- A JSON value is read as a value of a type, in the form that the type asks for. -/
inductive ReadsAs (schema : Registry) (type : FieldType) : Json → Value → Prop where
  | nil {json : Json} : type.isNullable = true → json.isNull = true → ReadsAs schema type json .nil
  | int {json : Json} {n : Int} : type.unwrap = .scalar .int → json.int64? = some n →
      ReadsAs schema type json (.int n)
  | string {json : Json} {text : String} : type.unwrap = .scalar .string → json.string? = some text →
      ReadsAs schema type json (.string text)
  | ref {json : Json} {target : EntityId} {payload : String} {r : Reference} :
      type.unwrap = .reference target → json.string? = some payload →
      Reference.parse payload = .ok r → ReadsAs schema type json (.ref r)
  | list {element : FieldType} {items : List Json} {values : List Value} :
      type.unwrap = .list element → items.mapM (convert schema element) = .ok values →
      ReadsAs schema type (.array items) (.list values)
  | map {key inner : FieldType} {members : List (String × Json)} {entries : List (Value × Value)} :
      type.unwrap = .map key inner → members.mapM (convertMember schema key inner) = .ok entries →
      ReadsAs schema type (.object members) (.mapOf entries)
  | record {target concrete : EntityId} {members : List (String × Json)} {record : Record} :
      type.unwrap = .embedded target → selectConcrete schema target members = .ok concrete →
      convertRecord schema concrete members = .ok record →
      ReadsAs schema type (.object members) record.toValue

/-- **A conversion that succeeds reads one of the forms.** -/
theorem readsAs_of_convert {type : FieldType} {json : Json} {value : Value}
    (run : convert schema type json = .ok value) : ReadsAs schema type json value := by
  rw [convert] at run
  split at run
  next null =>
    cases run
    exact .nil null.1 null.2
  next =>
    split at run
    next fits =>
      split at run
      next n read =>
        cases run
        exact .int fits read
      next => cases run
    next fits =>
      split at run
      next text read =>
        cases run
        exact .string fits read
      next => cases run
    next target fits =>
      split at run
      next payload read =>
        obtain ⟨r, parsed, rfl⟩ := map_eq_ok_iff.mp run
        exact .ref fits read parsed
      next => cases run
    next element fits =>
      split at run
      next =>
        obtain ⟨values, converted, last⟩ := bind_eq_ok_iff.mp run
        cases last
        rw [convertItems_eq_mapM] at converted
        exact .list fits converted
      next => cases run
    next key inner fits =>
      split at run
      next =>
        obtain ⟨entries, converted, last⟩ := bind_eq_ok_iff.mp run
        cases last
        rw [convertEntries_eq_mapM] at converted
        exact .map fits converted
      next => cases run
    next target fits =>
      split at run
      next =>
        obtain ⟨concrete, selected, run⟩ := bind_eq_ok_iff.mp run
        obtain ⟨record, converted, last⟩ := bind_eq_ok_iff.mp run
        cases last
        exact .record fits selected converted
      next => cases run
    next => cases run

/-! ### Parts are smaller -/

theorem sizeOf_lt_of_item {items : List Json} {item : Json} (mem : item ∈ items) :
    sizeOf item < sizeOf (Json.array items) := by
  have := List.sizeOf_lt_of_mem mem
  simp only [Json.array.sizeOf_spec]
  omega

theorem sizeOf_lt_of_member {members : List (String × Json)} {member : String × Json}
    (mem : member ∈ members) : sizeOf member.2 < sizeOf (Json.object members) := by
  have := List.sizeOf_lt_of_mem mem
  obtain ⟨name, json⟩ := member
  simp only [Json.object.sizeOf_spec, Prod.mk.sizeOf_spec] at this ⊢
  omega

theorem sizeOf_lt_of_field {members : List (String × Json)} {name : String} {json : Json}
    (found : SortedMap.find? compare name members = some json) :
    sizeOf json < sizeOf (Json.object members) := by
  have := SortedMap.sizeOf_lt_of_find? found
  simp only [Json.object.sizeOf_spec]
  omega

end EntityForge.Loading
