import EntityForge.Model.Resolved
import EntityForge.Output.Source
import EntityForge.Output.Tree

/-!
The generated classes: one serialisable class for every classified type, in a file of its name.
-/

namespace EntityForge.CSharp

/-- The type of a field; optional values have the type of the value. -/
def fieldType (schema : Registry) : FieldType → String
  | .scalar .int => "long"
  | .scalar .string => "string"
  | .optional inner => fieldType schema inner
  | .list element => "List<" ++ fieldType schema element ++ ">"
  | .map key value =>
    "Dictionary<" ++ fieldType schema key ++ ", " ++ fieldType schema value ++ ">"
  | .reference target | .embedded target => schema.nameOf target

/-- The source of the class of a type. -/
def classSource (schema : Registry) (projectNamespace : String) (entity : EntityType) : Source :=
  let fields := entity.fields.map fun field =>
    SourceLine.plain s!"public {fieldType schema field.type} {Text.upperCamelCase field.name};"
  [.plain "using System.Collections.Generic;", .plain "using UnityEngine;", Source.blank,
    .plain s!"namespace {projectNamespace}"] ++
  Source.block "\x7b" (
    [.plain "[System.Serializable]", .plain s!"public class {entity.name}"] ++
    Source.block "\x7b" (
      fields ++ [Source.blank] ++
      Source.block "public string ToJson() \x7b" [.plain "return JsonUtility.ToJson(this);"] ++
      [Source.blank] ++
      Source.block s!"public static {entity.name} FromJson(string json) \x7b"
        [.plain s!"return JsonUtility.FromJson<{entity.name}>(json);"]))

/-- Adds the class of a type to a tree. -/
def addClass (schema : Registry) (projectNamespace : String) (tree : OutputTree)
    (entry : EntityId × Category) : Except Error OutputTree := do
  let entity ← schema.get entry.1
  tree.insert ⟨entity.name ++ ".cs"⟩ (classSource schema projectNamespace entity).text

/-- The classes of a model. -/
def emit (projectNamespace : String) (m : ResolvedModel) : Except Error OutputTree :=
  m.classification.entries.foldlM (addClass m.schema projectNamespace) {}

end EntityForge.CSharp
