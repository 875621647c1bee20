import EntityForge.Solidity.DataContract

/-!
The visitor of a polymorphic group: a library that reads a variant from its serial form, and a
contract that dispatches on the tag before it. A tag is the position of the variant in its group.
-/

namespace EntityForge.Solidity

/-- The serial form of a field of a variant: only numbers and texts can be read. -/
def loader (m : ResolvedModel) (entity : EntityType) (field : Field) : Except Error String :=
  match field.type with
  | .scalar .int | .reference _ => .ok "uint"
  | .scalar .string => .ok "string"
  | other => fail (.invalidSchema (s!"variant field {entity.name}.{field.name} has undecodable " ++
      s!"type {m.schema.describe other}"))

/-- The function that reads a variant. -/
def loadFunction (m : ResolvedModel) (variant : EntityId) : Except Error Source := do
  let entity ← m.schema.get variant
  let v ← identifierOf m variant
  let members ← entity.fields.mapM fun field => do
    let form ← loader m entity field
    return SourceLine.plain s!"(_{v}.{memberName field.name}, off) = _data.load_{form}(off);"
  return Source.block (s!"function load_{v}(bytes memory _data, uint _off) internal pure " ++
    s!"returns ({v}_t memory _{v}, uint off) \x7b") (.plain "off = _off;" :: members)

/-- The branch that a variant takes. -/
def dispatch (library lower upperName : String) (index : Nat) (v : String) : Source :=
  let keyword := if index = 0 then "if" else "else if"
  Source.block s!"{keyword} (_type == {upperName}_TYPE_{upper v}) \x7b" [
    .plain s!"{library}.{v}_t memory _{v};",
    .plain s!"(_{v}, off) = _{lower}_bytes.load_{v}(off);",
    .plain s!"visit_{v}(_{v});"]

/-- The source of the visitor of a group. -/
def visitor (m : ResolvedModel) (group : PolymorphicGroup) : Except Error Source := do
  let canonical ← canonicalOf m group.base
  let lower := Text.snakeCase canonical
  let upperName := upper lower
  let library := canonical ++ "Lib"
  let tags ← group.variants.mapM fun variant => do
    let some tag := m.groups.variantTag? group.base variant
      | fail (.internal (m.schema.nameOf variant ++ " is not a variant"))
    let v ← identifierOf m variant
    return SourceLine.plain s!"uint constant {upperName}_TYPE_{upper v} = {tag};"
  let structs ← group.variants.mapM (structDefinition m)
  let loads ← group.variants.mapM (loadFunction m)
  let idents ← group.variants.mapM (identifierOf m)
  return header s!"visitors/{canonical}Visitor.sol" ++
    [.plain "import \"../../SerDes.sol\";", Source.blank] ++ tags ++
    [Source.blank] ++ Source.block s!"library {library} \x7b" (
      [Source.blank, .plain "using SerDes for bytes;", Source.blank] ++
      structs.flatMap (· ++ [Source.blank]) ++ loads.flatMap (· ++ [Source.blank])) ++
    [Source.blank] ++ Source.block s!"contract {canonical}Visitor \x7b" (
      [Source.blank, .plain "using SerDes for bytes;", .plain s!"using {library} for bytes;"] ++
      function s!"visit(bytes memory _{lower}_bytes) public" (
        [.plain "uint off = 0;", .plain "uint _type;",
          .plain s!"(_type, off) = _{lower}_bytes.load_uint(off);"] ++
        idents.zipIdx.flatMap fun (v, i) => dispatch library lower upperName i v) ++
      idents.flatMap fun v => function s!"visit_{v}({library}.{v}_t memory _{v}) internal" [])

end EntityForge.Solidity
