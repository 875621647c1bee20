import EntityForge.Loading.Convert

/-!
Documents as registered instances. A document is an object whose members are lists of entries for
fields of the catalog. The lists are first merged, one list for each field across all documents, and
the merged ones are registered field by field in the order of the catalog. So the entries of a field
keep the order of the documents; an error names the document that it comes from.
-/

namespace EntityForge.Loading

/-- A parsed document with the name of its source. -/
structure Document where
  source : String
  content : Json

/-- The entries of one field of the catalog, each with the source that it comes from. -/
abbrev Entries := List (String × Json)

/-- The catalog of a schema. -/
def catalogOf (schema : Registry) : Except Error EntityType :=
  match schema.catalog? with
  | some catalog => .ok catalog
  | none => fail (.invalidSchema "schema declares no catalog type")

/-- Puts the entries that a member of a document writes behind those that its field has. -/
def mergeMember (catalog : EntityType) (source : String) (merged : List Entries)
    (member : String × Json) : Except Error (List Entries) :=
  let (key, content) := member
  match catalog.fields.findIdx? (·.name == key) with
  | none =>
    inContext { source := some source }
      (fail (.parse ("unknown key " ++ Text.quoted key ++ " for " ++ catalog.name)))
  | some index =>
    match content with
    | .array entries => .ok (merged.modify index (· ++ entries.map (source, ·)))
    | other =>
      inContext { field := some key, source := some source }
        (fail (.valueMismatch "list" other.kindName))

/-- Merges the lists of a document. -/
def mergeDocument (catalog : EntityType) (merged : List Entries) (document : Document) :
    Except Error (List Entries) :=
  match document.content with
  | .object members => members.foldlM (mergeMember catalog document.source) merged
  | other =>
    inContext { source := some document.source }
      (fail (.parse ("expected an object of catalog lists, found " ++ other.kindName)))

/-- The entries that the documents write, for each field of the catalog in order. -/
def merge (catalog : EntityType) (documents : List Document) : Except Error (List Entries) :=
  documents.foldlM (mergeDocument catalog) (catalog.fields.map fun _ => [])

/-- The type of the entries of a catalog field. -/
def catalogElement (schema : Registry) (catalog : EntityType) (field : Field) :
    Except Error EntityId :=
  let list := match field.type with
    | .optional inner => inner
    | type => type
  match list with
  | .list (.embedded element) => .ok element
  | _ => fail (.invalidSchema ("catalog field " ++ catalog.name ++ "." ++ field.name ++
      " must be a list of entities, not " ++ schema.describe field.type))

/-- The record that an entry writes where `element` is expected. -/
def convertEntry (schema : Registry) (element : EntityId) (entry : Json) : Except Error Record :=
  match entry with
  | .object members => do
    let concrete ← selectConcrete schema element members
    convertRecord schema concrete members
  | _ => fail (.valueMismatch (schema.nameOf element) entry.kindName)

/-- Registers the record of an entry under its `id`. -/
def registerRecord (schema : Registry) (instances : InstanceRegistry) (record : Record) :
    Except Error InstanceRegistry := do
  let entity ← schema.get record.type
  match (record.get? "id").bind Value.string? with
  | none => fail (.missingField entity.name "id")
  | some id =>
    let (instances, _) ← inContext { entity := some entity.name, instanceId := some id }
      (instances.register schema id record)
    return instances

/-- Converts and registers an entry. -/
def registerEntry (schema : Registry) (element : EntityId) (instances : InstanceRegistry)
    (entry : String × Json) : Except Error InstanceRegistry :=
  inContext { source := some entry.1 } do
    registerRecord schema instances (← convertEntry schema element entry.2)

/-- Registers the merged entries of a field of the catalog. -/
def registerField (schema : Registry) (catalog : EntityType) (instances : InstanceRegistry)
    (part : Field × Entries) : Except Error InstanceRegistry := do
  let element ← catalogElement schema catalog part.1
  part.2.foldlM (registerEntry schema element) instances

/-- The sealed instances that the documents write. -/
def load (schema : Registry) (documents : List Document) : Except Error InstanceRegistry := do
  let catalog ← catalogOf schema
  let merged ← merge catalog documents
  let instances ← (catalog.fields.zip merged).foldlM (registerField schema catalog) {}
  return instances.close

end EntityForge.Loading
