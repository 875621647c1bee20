import EntityForge.Schema.Registry

/-!
The built-in schema of a role-playing game: the read-only catalog data, the per-player models, the
rewards, and the aggregate `GameData` that data files fill. A type is declared after those that its
fields point at, so no name is ever reserved.
-/

namespace EntityForge.GameSchema

/-- Declarations one after the other on a growing registry. -/
abbrev Build := StateT Registry (Except Error)

/-- Declares a type. -/
def declare (declaration : Declaration) : Build EntityId := do
  let (schema, id) ← (← get).declare declaration
  set schema
  return id

/-- A required text. -/
def text (name : String) : Field := { name, type := .scalar .string }

/-- A required number. -/
def number (name : String) : Field := { name, type := .scalar .int }

/-- A number that starts at zero. -/
def counter (name : String) : Field :=
  { name, type := .scalar .int, presence := .optional (some (.int 0)) }

/-- A required reference. -/
def link (name : String) (target : EntityId) : Field := { name, type := .reference target }

/-- A required list of references. -/
def links (name : String) (target : EntityId) : Field := { name, type := .list (.reference target) }

/-- A required list of embedded values. -/
def listOf (name : String) (element : EntityId) : Field :=
  { name, type := .list (.embedded element) }

/-- A list of the catalog, empty unless some document fills it. -/
def catalogList (name : String) (element : EntityId) : Field :=
  { listOf name element with presence := .optional (some (.list [])) }

/-- Declares catalog data. -/
def data (base : EntityId) (name : String) (fields : List Field) : Build EntityId :=
  declare { name, parent := some base, fields }

/-- Declares a ladder and the struct of its levels. -/
def ladder (base : EntityId) (subject : String) : Build EntityId := do
  let level ← declare { name := subject ++ "LevelLadderData", fields := [number "experience"] }
  declare {
    name := subject ++ "LadderData"
    parent := some base
    fields := [listOf "levels" level]
    annotations := { ladder := true } }

/-- Declares the upgrade material of a model, which the constant `type` tells apart. -/
def upgradeMaterial (parent : EntityId) (target typeTag : String) : Build EntityId :=
  declare {
    name := target ++ "UpgradeMaterialData"
    parent := some parent
    fields := [{
      name := "type", type := .scalar .string, presence := .constant (.string typeTag) }]
    annotations := { upgradeTarget := some target } }

/-- Declares a model that players own. -/
def ownedModel (parent : EntityId) (name : String) (data : EntityId) : Build EntityId :=
  declare {
    name, parent := some parent, fields := [link "data" data], annotations := { nft := true } }

/-- Declares a reward of so many instances of a type. -/
def reward (parent : EntityId) (name field : String) (target : EntityId) : Build EntityId :=
  declare { name, parent := some parent, fields := [link field target, number "amount"] }

/-- Declares all types. -/
def build : Build Unit := do
  let base ← declare {
    name := "BaseData"
    fields := [text "id"]
    annotations := { isAbstract := true }
    root := some .dataCatalog }
  let named := [text "name"]
  let described := [text "name", text "description"]
  let currency ← declare {
    name := "CurrencyData"
    parent := some base
    fields := [text "name", text "ticker"]
    annotations := { tokenized := true } }
  let achievement ← data base "AchievementData" described
  let affinity ← data base "AffinityData" described
  let quality ← data base "QualityData" named
  let faction ← data base "FactionData" described
  let building ← data base "BuildingData" described
  let heroSkin ← data base "HeroSkinData" described
  let heroClass ← data base "HeroClassData" described
  let heroLadder ← ladder base "Hero"
  let heroSlot ← data base "HeroWeaponSlotData" named
  let skill ← data base "SkillData" named
  let hero ← data base "HeroData" (described ++ [
    link "ladder" heroLadder, link "affinity" affinity, link "klass" heroClass,
    links "slots" heroSlot, links "skills" skill, link "quality" quality])
  let weaponLadder ← ladder base "Weapon"
  let weapon ← data base "WeaponData" (described ++ [link "ladder" weaponLadder])
  let artifactLadder ← ladder base "Artifact"
  let artifact ← data base "ArtifactData" (described ++ [link "ladder" artifactLadder])
  let expedition ← data base "ExpeditionData" described
  let material ← declare {
    name := "UpgradeMaterialData"
    parent := some base
    fields := [text "name", number "value", text "description"]
    annotations := { isAbstract := true } }
  let _ ← upgradeMaterial material "Hero" "hero_upgrade_material"
  let _ ← upgradeMaterial material "Weapon" "weapon_upgrade_material"
  let _ ← upgradeMaterial material "Artifact" "artifact_upgrade_material"
  let model ← declare {
    name := "DataModel", annotations := { isAbstract := true }, root := some .model }
  let upgradeable ← declare {
    name := "Upgradeable"
    parent := some model
    fields := [number "level"]
    annotations := { isAbstract := true } }
  let withExp ← declare {
    name := "UpgradeableWithExp"
    parent := some model
    fields := [counter "exp", counter "level"]
    annotations := { isAbstract := true } }
  let _ ← declare {
    name := "SkillModel", parent := some upgradeable, fields := [link "data" skill] }
  let heroModel ← ownedModel withExp "HeroModel" hero
  let weaponModel ← ownedModel withExp "WeaponModel" weapon
  let artifactModel ← ownedModel withExp "ArtifactModel" artifact
  let buildingModel ← ownedModel upgradeable "BuildingModel" building
  let _ ← declare {
    name := "UserModel"
    fields := [number "exp", number "level", listOf "buildings" buildingModel,
      listOf "heroes" heroModel, listOf "weapons" weaponModel, listOf "artifacts" artifactModel] }
  let rewardBase ← declare { name := "RewardBase", annotations := { polymorphicBase := true } }
  let _ ← reward rewardBase "RewardHero" "hero" hero
  let _ ← reward rewardBase "RewardWeapon" "weapon" weapon
  let _ ← reward rewardBase "RewardArtifact" "artifact" artifact
  let _ ← declare {
    name := "GameData"
    fields := [
      catalogList "upgrade_materials" material, catalogList "currencies" currency,
      catalogList "buildings" building, catalogList "quality" quality,
      catalogList "affinity" affinity, catalogList "factions" faction,
      catalogList "hero_class" heroClass, catalogList "hero_slots" heroSlot,
      catalogList "hero_skins" heroSkin, catalogList "artifacts" artifact,
      catalogList "artifact_ladder" artifactLadder, catalogList "heroes" hero,
      catalogList "hero_ladder" heroLadder, catalogList "weapons" weapon,
      catalogList "weapon_ladder" weaponLadder, catalogList "achievements" achievement,
      catalogList "expeditions" expedition, catalogList "skills" skill]
    root := some .catalog }

/-- The registry of the built-in schema. -/
def registry : Except Error Registry := do
  let ((), schema) ← build.run {}
  schema.validate
  return schema

end EntityForge.GameSchema
