import EntityForge.Loading.Documents
import EntityForge.Proofs.Loading.Parts

/-!
Where failed conversions say that they failed. A conversion that comes to another one inside it fails
with the error of that one, to which the fields on the way out are added (`ComesTo.fails`), and what
an inner one has recorded stays (`Error.piece?_foldl_within`). Conversions record types and fields
only (`onItsOwn_convert`): the entry that is converted and its source are left to be named by the
caller.
-/

namespace EntityForge

/-- The pieces of a context. -/
inductive Piece where
  | entity
  | instanceId
  | field
  | source
deriving DecidableEq

/-- A piece of a context, if it is recorded. -/
def Context.piece? (context : Context) : Piece → Option String
  | .entity => context.entity
  | .instanceId => context.instanceId
  | .field => context.field
  | .source => context.source

/-- A piece of the context of an error, if it is recorded. -/
def Error.piece? (e : Error) (piece : Piece) : Option String := e.context.bind (·.piece? piece)

/-- A recorded piece is kept, and a missing one is filled in. -/
theorem Error.piece?_within (e : Error) (context : Context) (piece : Piece) :
    (e.within context).piece? piece = (e.piece? piece).or (context.piece? piece) := by
  obtain ⟨cause, inner⟩ := e
  cases inner with
  | none => rfl
  | some inner => cases piece <;> rfl

/-- A piece as the first of some contexts has it that records it. -/
def recorded? (path : List Context) (piece : Piece) : Option String :=
  path.findSome? (·.piece? piece)

/-- Contexts that are added one after the other fill in what they are the first to record. -/
theorem Error.piece?_foldl_within (e : Error) (path : List Context) (piece : Piece) :
    (path.foldl Error.within e).piece? piece = (e.piece? piece).or (recorded? path piece) := by
  unfold recorded?
  induction path generalizing e with
  | nil => simp
  | cons context rest ih =>
      rw [List.foldl_cons, ih, Error.piece?_within, Option.or_assoc, List.findSome?_cons]
      cases context.piece? piece <;> simp

namespace Loading

variable {schema : Registry} {α β : Type}

/-! ### Errors of conversions -/

/-- An error of a conversion, which knows neither the instance nor the source. -/
structure OnItsOwn (e : Error) : Prop where
  instanceId : e.piece? .instanceId = none
  source : e.piece? .source = none
  /-- Repeated ids are found by the registration. -/
  cause : ∀ entity id, e.cause ≠ .duplicateInstance entity id

theorem OnItsOwn.within {e : Error} (own : OnItsOwn e) (entity field : Option String) :
    OnItsOwn (e.within { entity, field }) where
  instanceId := by rw [Error.piece?_within, own.instanceId]; rfl
  source := by rw [Error.piece?_within, own.source]; rfl
  cause := own.cause

/-- A computation that fails with such errors only. -/
def FailsOnItsOwn (result : Except Error α) : Prop := ∀ e, result = .error e → OnItsOwn e

namespace FailsOnItsOwn

theorem ok (a : α) : FailsOnItsOwn (.ok a) := by
  rintro e ⟨⟩

theorem fail (cause : Cause) (other : ∀ entity id, cause ≠ .duplicateInstance entity id) :
    FailsOnItsOwn (fail cause : Except Error α) := by
  rintro e ⟨⟩
  exact ⟨rfl, rfl, other⟩

theorem bind {first : Except Error α} {rest : α → Except Error β} (one : FailsOnItsOwn first)
    (other : ∀ a, FailsOnItsOwn (rest a)) : FailsOnItsOwn (first >>= rest) := by
  intro e failed
  rcases bind_eq_error_iff.mp failed with here | ⟨a, _, later⟩
  · exact one e here
  · exact other a e later

theorem map {result : Except Error α} (inside : FailsOnItsOwn result) (make : α → β) :
    FailsOnItsOwn (result.map make) := by
  cases result with
  | ok a => exact .ok (make a)
  | error e =>
      rintro _ ⟨⟩
      exact inside e rfl

theorem inContext {result : Except Error α} (inside : FailsOnItsOwn result)
    (entity field : Option String) : FailsOnItsOwn (inContext { entity, field } result) := by
  intro e failed
  obtain ⟨inner, here, rfl⟩ := inContext_eq_error_iff.mp failed
  exact (inside inner here).within entity field

theorem mapM {f : α → Except Error β} {items : List α}
    (all : ∀ item ∈ items, FailsOnItsOwn (f item)) : FailsOnItsOwn (items.mapM f) := by
  intro e failed
  obtain ⟨item, mem, here⟩ := exists_of_mapM_eq_error failed
  exact all item mem e here

end FailsOnItsOwn

/-! ### Conversions fail on their own -/

theorem onItsOwn_get (type : EntityId) : FailsOnItsOwn (schema.get type) := by
  unfold Registry.get
  split
  · exact .ok _
  · exact .fail _ (by simp)
  · exact .fail _ (by simp)

theorem onItsOwn_mapKey (key : FieldType) (name : String) : FailsOnItsOwn (mapKey key name) := by
  unfold mapKey
  split
  · exact .ok _
  · split
    · exact .ok _
    · exact .fail _ (by simp)
  · exact .fail _ (by simp)

theorem onItsOwn_parse (payload : String) : FailsOnItsOwn (Reference.parse payload) := by
  unfold Reference.parse
  dsimp only
  split
  · split
    · exact .ok _
    · exact .fail _ (by simp)
  · exact .fail _ (by simp)

theorem onItsOwn_selectConcrete (declared : EntityId) (members : List (String × Json)) :
    FailsOnItsOwn (selectConcrete schema declared members) := by
  refine (onItsOwn_get declared).bind fun entity => ?_
  split
  · exact .ok _
  · dsimp only
    split
    · exact (FailsOnItsOwn.fail _ (by simp)).inContext _ _
    · split
      · exact .ok _
      · exact (FailsOnItsOwn.fail _ (by simp)).inContext _ _

theorem onItsOwn_checkKeys (entity : EntityType) (members : List (String × Json)) :
    FailsOnItsOwn (checkKeys entity members) := by
  unfold checkKeys
  split
  · exact .ok _
  · exact (FailsOnItsOwn.fail _ (by simp)).inContext _ _

theorem onItsOwn_absentValue (entity : EntityType) (field : Field) :
    FailsOnItsOwn (absentValue entity field) := by
  unfold absentValue
  split
  · exact .fail _ (by simp)
  · exact .ok _
  · exact .ok _

theorem onItsOwn_checkConstant (field : Field) (value : Value) :
    FailsOnItsOwn (checkConstant field value) := by
  unfold checkConstant
  split
  · split
    · exact .ok _
    · exact .fail _ (by simp)
  · exact .ok _

/-- A record fails on its own if what its fields are converted from does. -/
theorem onItsOwn_convertRecord (type : EntityId) {members : List (String × Json)}
    (inside : ∀ name json, SortedMap.find? compare name members = some json →
      ∀ type, FailsOnItsOwn (convert schema type json)) :
    FailsOnItsOwn (convertRecord schema type members) := by
  rw [convertRecord_eq_mapM]
  refine (onItsOwn_get type).bind fun entity => (onItsOwn_checkKeys entity members).bind fun _ => ?_
  refine FailsOnItsOwn.bind (.mapM fun field _ => ?_) fun _ => .ok _
  have absent : FailsOnItsOwn (do return (field.name, ← absentValue entity field)) :=
    (onItsOwn_absentValue entity field).bind fun _ => .ok _
  unfold convertField
  split
  · exact absent
  · exact absent
  · rename_i json _ found
    refine FailsOnItsOwn.inContext ?_ _ _
    refine (inside field.name json found field.type).bind fun value => ?_
    exact (onItsOwn_checkConstant field value).bind fun _ => .ok _

/-- **A conversion fails on its own.** The recursion is on the document; a record goes on to members
of its object. -/
theorem onItsOwn_convert (type : FieldType) (json : Json) :
    FailsOnItsOwn (convert schema type json) := by
  rw [convert]
  split
  · exact .ok _
  · split
    · split
      · exact .ok _
      · exact .fail _ (by simp)
    · split
      · exact .ok _
      · exact .fail _ (by simp)
    · split
      · exact (onItsOwn_parse _).map _
      · exact .fail _ (by simp)
    · split
      · rename_i element _ _ items _
        rw [convertItems_eq_mapM]
        exact FailsOnItsOwn.bind (.mapM fun item mem => onItsOwn_convert element item) fun _ => .ok _
      · exact .fail _ (by simp)
    · split
      · rename_i key inner _ _ members _
        rw [convertEntries_eq_mapM]
        refine FailsOnItsOwn.bind (.mapM fun member mem => ?_) fun _ => .ok _
        refine FailsOnItsOwn.bind (onItsOwn_mapKey key member.1) fun k => ?_
        exact (onItsOwn_convert inner member.2).bind fun _ => .ok _
      · exact .fail _ (by simp)
    · split
      · rename_i target _ _ members _
        refine (onItsOwn_selectConcrete target members).bind fun concrete => ?_
        refine (onItsOwn_convertRecord concrete fun name json found type => ?_).bind fun _ => .ok _
        exact onItsOwn_convert type json
      · exact .fail _ (by simp)
    · exact .fail _ (by simp)
termination_by sizeOf json
decreasing_by
  · simp_all only [sizeOf_lt_of_item mem]
  · simp_all only [sizeOf_lt_of_member mem]
  · simp_all only [sizeOf_lt_of_field found]

/-! ### Conversions inside conversions -/

/-- The conversion of `json` where `type` is declared comes to the conversion of `json'` where `type'`
is: all that is converted before it is converted without an error. The contexts are those of the
fields that it is inside of, from the inside out. -/
inductive ComesTo (schema : Registry) (type' : FieldType) (json' : Json) :
    FieldType → Json → List Context → Prop where
  | here : ComesTo schema type' json' type' json' []
  | item {type element : FieldType} {before after : List Json} {json : Json} {values : List Value}
      {path : List Context} : type.unwrap = .list element →
      before.mapM (convert schema element) = .ok values →
      ComesTo schema type' json' element json path →
      ComesTo schema type' json' type (.array (before ++ json :: after)) path
  | value {type key inner : FieldType} {before after : List (String × Json)} {name : String}
      {json : Json} {entries : List (Value × Value)} {k : Value} {path : List Context} :
      type.unwrap = .map key inner →
      before.mapM (convertMember schema key inner) = .ok entries → mapKey key name = .ok k →
      ComesTo schema type' json' inner json path →
      ComesTo schema type' json' type (.object (before ++ (name, json) :: after)) path
  | field {type : FieldType} {target concrete : EntityId} {members : List (String × Json)}
      {entity : EntityType} {before after : List Field} {field : Field}
      {values : List (String × Value)} {json : Json} {path : List Context} :
      type.unwrap = .embedded target → selectConcrete schema target members = .ok concrete →
      schema.entity? concrete = some entity → checkKeys entity members = .ok () →
      entity.fields = before ++ field :: after →
      before.mapM (convertField schema entity members) = .ok values →
      SortedMap.find? compare field.name members = some json → json ≠ .null →
      ComesTo schema type' json' field.type json path →
      ComesTo schema type' json' type (.object members)
        (path ++ [{ entity := some entity.name, field := some field.name }])

theorem convertField_eq_error {entity : EntityType} {members : List (String × Json)} {field : Field}
    {json : Json} {e : Error} (found : SortedMap.find? compare field.name members = some json)
    (present : json ≠ .null) (failed : convert schema field.type json = .error e) :
    convertField schema entity members field =
      .error (e.within { entity := some entity.name, field := some field.name }) := by
  rw [convertField, found]
  cases json with
  | null => exact (present rfl).elim
  | _ =>
      dsimp only
      rw [failed]
      rfl

theorem convertMember_eq_error {key inner : FieldType} {name : String} {json : Json} {k : Value}
    {e : Error} (keyed : mapKey key name = .ok k) (failed : convert schema inner json = .error e) :
    convertMember schema key inner (name, json) = .error e :=
  bind_eq_error_iff.mpr (.inr ⟨k, keyed, bind_eq_error_iff.mpr (.inl failed)⟩)

theorem convertRecord_eq_error {type : EntityId} {members : List (String × Json)}
    {entity : EntityType} {before after : List Field} {field : Field}
    {values : List (String × Value)} {e : Error} (found : schema.entity? type = some entity)
    (keys : checkKeys entity members = .ok ()) (split : entity.fields = before ++ field :: after)
    (earlier : before.mapM (convertField schema entity members) = .ok values)
    (failed : convertField schema entity members field = .error e) :
    convertRecord schema type members = .error e := by
  rw [convertRecord_eq_mapM]
  refine bind_eq_error_iff.mpr (.inr ⟨entity, Registry.get_eq_ok_iff.mpr found, ?_⟩)
  refine bind_eq_error_iff.mpr (.inr ⟨(), keys, ?_⟩)
  rw [split]
  exact bind_eq_error_iff.mpr (.inl (mapM_eq_error_of_split earlier failed))

/-- **A conversion fails as the one that it comes to,** and each field on the way out adds what is
missing. -/
theorem ComesTo.fails {type type' : FieldType} {json json' : Json} {path : List Context} {e : Error}
    (comes : ComesTo schema type' json' type json path)
    (failed : convert schema type' json' = .error e) :
    convert schema type json = .error (path.foldl Error.within e) := by
  induction comes with
  | here => exact failed
  | item fits earlier _ ih =>
      rw [convert, if_neg (by simp [Json.isNull]), fits]
      dsimp only
      rw [convertItems_eq_mapM, mapM_eq_error_of_split earlier ih]
      rfl
  | value fits earlier keyed _ ih =>
      rw [convert, if_neg (by simp [Json.isNull]), fits]
      dsimp only
      rw [convertEntries_eq_mapM,
        mapM_eq_error_of_split earlier (convertMember_eq_error keyed ih)]
      rfl
  | field fits selected found keys split earlier here present _ ih =>
      rw [convert, if_neg (by simp [Json.isNull]), fits]
      dsimp only
      have failed := convertRecord_eq_error found keys split earlier
        (convertField_eq_error here present ih)
      rw [List.foldl_append]
      refine bind_eq_error_iff.mpr (.inr ⟨_, selected, ?_⟩)
      exact bind_eq_error_iff.mpr (.inl failed)

end Loading

end EntityForge
