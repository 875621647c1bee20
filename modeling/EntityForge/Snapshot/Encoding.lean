import EntityForge.MessagePack.Reader
import EntityForge.MessagePack.Writer
import EntityForge.Snapshot.Basic

/-!
Snapshots as MessagePack. A structure is written as a map from the names of its fields, in their
order, to their values. It is read from such a map whatever the order of its entries, with field
positions in place of names and with further entries, and also from the plain array of its values.
-/

namespace EntityForge

/-- The word for a category in snapshots. -/
def Category.word : Category → String
  | model => "Model"
  | ladderData => "LadderData"
  | staticData => "StaticData"
  | polymorphicVariant => "PolymorphicVariant"
  | plainStruct => "PlainStruct"

namespace MessagePack

/-- A structure with named fields. -/
def record (fields : List (String × MessagePack)) : MessagePack :=
  .map (fields.map fun (name, value) => (text name, value))

/-- What may stand for a field or a category: a text, or a position in an unsigned form. -/
def isLabel : MessagePack → Bool
  | natural _ | string _ | binary _ => true
  | _ => false

/-- The label stands for the name at a position. -/
def labels (name : String) (position : Nat) : MessagePack → Bool
  | natural n => n == position
  | string bytes | binary bytes => bytes == utf8 name
  | _ => false

/-- The value of the only entry for a field. -/
def fieldValue? (entries : List (MessagePack × MessagePack)) (field : String × Nat) :
    Option MessagePack :=
  match entries.filter fun (label, _) => labels field.1 field.2 label with
  | [(_, value)] => some value
  | _ => none

/-- The values of the fields of a structure, in the order of their names. -/
def fieldValues? (names : List String) : MessagePack → Option (List MessagePack)
  | array items => if items.length = names.length then some items else none
  | map entries =>
    if entries.all (isLabel ·.1) then names.zipIdx.mapM (fieldValue? entries) else none
  | _ => none

/-- The items of an array, each read. -/
def listOf? {α : Type} (read : MessagePack → Option α) (value : MessagePack) : Option (List α) := do
  (← value.items?).mapM read

end MessagePack

namespace Snapshot

open MessagePack

/-! ### Writing -/

/-- Entity types as their positions. -/
def idsValue (ids : List EntityId) : MessagePack := .array (ids.map (.natural ·.index))

/-- The names of a type. -/
def namesValue (names : Names) : MessagePack :=
  MessagePack.record [
    ("canonical", text names.canonical), ("canonical_plural", text names.canonicalPlural),
    ("identifier", text names.identifier), ("identifier_plural", text names.identifierPlural),
    ("camel", text names.camel), ("camel_plural", text names.camelPlural)]

/-- The dependencies of a type. -/
def dependenciesValue (d : Dependencies) : MessagePack :=
  MessagePack.record [
    ("direct", idsValue d.direct), ("transitive", idsValue d.transitive),
    ("reachable", idsValue d.reachable), ("layout_order", idsValue d.layoutOrder)]

/-- What is derived for a type. -/
def typeValue (t : TypeFacts) : MessagePack :=
  MessagePack.record [
    ("id", .natural t.id.index), ("name", text t.name), ("category", text t.category.word),
    ("names", namesValue t.names), ("dependencies", dependenciesValue t.dependencies)]

/-- A polymorphic group. -/
def groupValue (g : PolymorphicGroup) : MessagePack :=
  MessagePack.record [("base", .natural g.base.index), ("variants", idsValue g.variants)]

/-- The token of an instance. -/
def tokenValue (t : TokenFacts) : MessagePack :=
  MessagePack.record [
    ("entity", text t.entity), ("id", text t.id), ("token_id", .natural t.tokenId)]

/-- A snapshot as a MessagePack value. -/
def toMessagePack (s : Snapshot) : MessagePack :=
  MessagePack.record [
    ("types", .array (s.types.map typeValue)), ("groups", .array (s.groups.map groupValue)),
    ("tokens", .array (s.tokens.map tokenValue))]

/-- The bytes of a snapshot. -/
def encode (s : Snapshot) : List UInt8 := s.toMessagePack.encode

/-! ### Reading -/

/-- An entity type. -/
def id? (value : MessagePack) : Option EntityId := value.word?.map EntityId.mk

/-- A list of entity types whose order and repetitions count. -/
def ids? : MessagePack → Option (List EntityId) := listOf? id?

/-- A set of entity types, ascending. -/
def idSet? (value : MessagePack) : Option (List EntityId) := (ids? value).map EntityId.sorted

/-- The category that a label stands for. -/
def labelled? (label : MessagePack) : Option Category :=
  (Category.all.zipIdx.find? fun (category, i) => labels category.word i label).map Prod.fst

/-- A category: its label, alone or as the only key of a map with the value nil. -/
def category? : MessagePack → Option Category
  | .map [(label, .nil)] => labelled? label
  | label => labelled? label

/-- The names of a type. -/
def names? (value : MessagePack) : Option Names := do
  match ← fieldValues? ["canonical", "canonical_plural", "identifier", "identifier_plural", "camel",
      "camel_plural"] value with
  | [canonical, canonicalPlural, identifier, identifierPlural, camel, camelPlural] =>
    return {
      canonical := ← canonical.text?
      canonicalPlural := ← canonicalPlural.text?
      identifier := ← identifier.text?
      identifierPlural := ← identifierPlural.text?
      camel := ← camel.text?
      camelPlural := ← camelPlural.text? }
  | _ => none

/-- The dependencies of a type. -/
def dependencies? (value : MessagePack) : Option Dependencies := do
  match ← fieldValues? ["direct", "transitive", "reachable", "layout_order"] value with
  | [direct, transitive, reachable, layoutOrder] =>
    return {
      direct := ← idSet? direct
      transitive := ← idSet? transitive
      reachable := ← idSet? reachable
      layoutOrder := ← ids? layoutOrder }
  | _ => none

/-- What is derived for a type. -/
def typeFacts? (value : MessagePack) : Option TypeFacts := do
  match ← fieldValues? ["id", "name", "category", "names", "dependencies"] value with
  | [id, name, category, names, dependencies] =>
    return {
      id := ← id? id
      name := ← name.text?
      category := ← category? category
      names := ← names? names
      dependencies := ← dependencies? dependencies }
  | _ => none

/-- A polymorphic group. -/
def group? (value : MessagePack) : Option PolymorphicGroup := do
  match ← fieldValues? ["base", "variants"] value with
  | [base, variants] => return { base := ← id? base, variants := ← ids? variants }
  | _ => none

/-- The token of an instance. -/
def tokenFacts? (value : MessagePack) : Option TokenFacts := do
  match ← fieldValues? ["entity", "id", "token_id"] value with
  | [entity, id, tokenId] =>
    return { entity := ← entity.text?, id := ← id.text?, tokenId := ← tokenId.word? }
  | _ => none

/-- The snapshot that a MessagePack value writes. -/
def ofMessagePack? (value : MessagePack) : Option Snapshot := do
  match ← fieldValues? ["types", "groups", "tokens"] value with
  | [types, groups, tokens] =>
    return {
      types := ← listOf? typeFacts? types
      groups := ← listOf? group? groups
      tokens := ← listOf? tokenFacts? tokens }
  | _ => none

/-- The snapshot at the front of a list of bytes. -/
def decode (bytes : List UInt8) : Except Error Snapshot :=
  match (MessagePack.decode bytes).bind ofMessagePack? with
  | some snapshot => .ok snapshot
  | none => fail (.serialization "no snapshot")

end Snapshot

end EntityForge
