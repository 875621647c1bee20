import EntityForge.Proofs.Solidity.Contracts
import EntityForge.Proofs.Solidity.Creations
import EntityForge.Proofs.Solidity.FunctionNames

/-!
Which constructors the contract of a model defines, and which it calls. It lays out the models that
its type embeds in turn (`laidOut_ok`), and defines a constructor for those with data. It calls the
constructor of its own type, and those of the elements of lists that have data: nothing asks whether
an element is a model, so the two agree exactly if all of these are (`constructors_called_iff`).
-/

namespace EntityForge.Solidity

open Relation

variable {schema : Registry} {instances : InstanceRegistry} {m : ResolvedModel} {type : EntityId}
  {c : ModelLayout}

/-! ### Models of a contract -/

/-- A type is declared as a model. -/
def IsModel (m : ResolvedModel) (type : EntityId) : Prop :=
  ∃ entity, m.schema.entity? type = some entity ∧ entity.kind = .model

/-- A contract lays out the models that chains of embedded models lead to, each once. -/
theorem laidOut_ok (verified : m.Verified) (declares : m.schema.Declares type)
    {models : List EntityId} (placed : laidOut m type = .ok models) :
    models.Nodup ∧ ∀ t, t ∈ models ↔ ReflTransGen m.schema.EmbedsModel type t := by
  obtain ⟨d, computed, kept⟩ := verified.dependenciesOf_eq type declares
  obtain ⟨_, layout, values, _, structural, followed, rfl⟩ := Dependencies.ofType_eq_ok_iff.mp computed
  obtain ⟨nodup, _, mem⟩ := Walk.below_ok verified.valid structural
  obtain ⟨_, _, memModels⟩ := Walk.below_ok verified.valid followed
  rw [Walk.follows_all verified.valid] at mem
  rw [Walk.follows_models] at memModels
  rw [laidOut, kept] at placed
  obtain rfl := Except.ok.inj placed
  have inside : ∀ t, t ∈ layout.filter ((EntityId.sorted values).contains ·) ↔
      t ≠ type ∧ TransGen m.schema.EmbedsModel type t := by
    intro t
    rw [List.mem_filter, List.contains_iff_mem, EntityId.mem_sorted, mem, memModels]
    constructor
    · exact fun both => both.2
    · rintro ⟨other, chain⟩
      exact ⟨⟨other, TransGen.mono (fun _ _ => Registry.EmbedsModel.embeds) _ _ chain⟩, other, chain⟩
  constructor
  · rw [List.nodup_append]
    refine ⟨nodup.filter _, List.nodup_singleton type, fun t listed last isLast => ?_⟩
    exact List.mem_singleton.mp isLast ▸ ((inside t).mp listed).1
  · intro t
    rw [List.mem_append, List.mem_singleton, inside, reflTransGen_iff_eq_or_transGen]
    constructor
    · rintro (⟨_, chain⟩ | same)
      · exact .inr chain
      · exact .inl same
    · rintro (same | chain)
      · exact .inr same
      · by_cases same : t = type
        · exact .inr same
        · exact .inl ⟨same, chain⟩

/-- What a laid out model stores, other than in maps, is laid out exactly if it is a model. -/
theorem mem_laidOut_iff (verified : m.Verified) (declares : m.schema.Declares type)
    {models : List EntityId} (placed : laidOut m type = .ok models) {owner element : EntityId}
    (listed : owner ∈ models) (stores : m.schema.Stores false owner element) :
    element ∈ models ↔ IsModel m element := by
  obtain ⟨_, mem⟩ := laidOut_ok verified declares placed
  have above := (mem owner).mp listed
  rw [mem]
  constructor
  · intro below
    rcases below.cases_tail with same | ⟨_, _, embeds⟩
    · have up : ReflTransGen m.schema.Embeds type owner :=
        ReflTransGen.mono (fun _ _ => Registry.EmbedsModel.embeds) _ _ above
      have back : m.schema.Embeds owner type := same ▸ stores.embeds
      exact absurd (TransGen.tail' up back) (verified.not_transGen_self declares)
    · exact embeds.2
  · exact fun isModel => above.tail ⟨stores, isModel⟩

theorem sharedListElement?_eq_some {data : EntityType} {field : Field} {element : EntityId}
    (shared : sharedListElement? m data field = some element) :
    field.type = .list (.embedded element) ∧ hasData m element = true := by
  unfold sharedListElement? at shared
  split at shared
  · rename_i target _ listed _
    split at shared
    · rename_i refers
      cases shared
      exact ⟨listed, refers⟩
    · cases shared
  · cases shared

theorem declares_of_hasData (has : hasData m type = true) : m.schema.Declares type := by
  obtain ⟨data, refers⟩ := Option.isSome_iff_exists.mp has
  obtain ⟨entity, declared, _⟩ := Option.bind_eq_some_iff.mp refers
  exact ⟨entity, declared⟩

/-! ### Names -/

theorem identifierOf_inj (verified : m.Verified) {a b : EntityId} {ident : String}
    (declares : m.schema.Declares a) (declares' : m.schema.Declares b)
    (named : identifierOf m a = .ok ident) (named' : identifierOf m b = .ok ident) : a = b := by
  obtain ⟨entity, declared⟩ := declares
  obtain ⟨entity', declared'⟩ := declares'
  rw [identifierOf_eq verified declared] at named
  rw [identifierOf_eq verified declared'] at named'
  exact verified.consistent.eq_of_tag declared declared'
    (Except.ok.inj (named.trans named'.symm))

theorem createName_injective : Function.Injective createName := by
  intro a b same
  have chars := congrArg String.toList same
  simp only [createName, String.toList_append] at chars
  exact String.toList_inj.mp (List.append_cancel_left chars)

/-- How a name starts tells constructors, array initialisers and operations apart. -/
def start (name : String) : List Char := name.toList.take 3

theorem start_createName (ident : String) : start (createName ident) = ['c', 'r', 'e'] := by
  simp only [start, createName, String.toList_append]
  rfl

theorem start_arrayName (n : Nat) : start (arrayName n) = ['g', 'e', 't'] := by
  simp only [start, arrayName, String.toList_append]
  rfl

namespace ModelLayout

/-- The names that do not depend on the models. -/
def fixedNames (c : ModelLayout) : List String := "initialize" :: c.operations.map FunctionDef.name

/-- The names of the array initialisers. -/
def arrayNames (c : ModelLayout) : List String :=
  (c.creations.flatMap Creation.arrays).map fun array => arrayName array.number

/-- The names of the constructors. -/
def createNames (c : ModelLayout) : List String := (c.creations.map Creation.ident).map createName

theorem fixedNames_sublist (c : ModelLayout) :
    c.fixedNames.Sublist ["initialize", "mint", "give", "add_exp"] := by
  unfold fixedNames operations experience
  cases c.ladderIdent with
  | none => exact List.sublist_append_left ["initialize", "mint", "give"] ["add_exp"]
  | some ladderIdent => exact .refl _

theorem start_of_mem_fixedNames {name : String} (mem : name ∈ c.fixedNames) :
    start name ≠ ['c', 'r', 'e'] ∧ start name ≠ ['g', 'e', 't'] := by
  have listed := c.fixedNames_sublist.subset mem
  simp only [List.mem_cons, List.not_mem_nil, or_false] at listed
  rcases listed with rfl | rfl | rfl | rfl <;> decide

theorem perm_names (c : ModelLayout) :
    c.names.Perm (c.createNames ++ c.arrayNames ++ c.fixedNames) := by
  have split := (List.map_append_flatMap_perm c.creations Creation.function
    fun creation => creation.arrays.map FunctionDef.array).symm
  rw [← List.map_flatMap] at split
  have named := split.map FunctionDef.name
  rw [List.map_append, List.map_map, List.map_map] at named
  have creates : c.createNames = c.creations.map (FunctionDef.name ∘ Creation.function) :=
    List.map_map
  rw [names, creates]
  exact named.append_right _

end ModelLayout

namespace IsCreation

variable {creation : Creation}

theorem identifierOf_eq (isCreation : IsCreation m type creation) :
    identifierOf m type = .ok creation.ident := by
  obtain ⟨names, named, same, _⟩ := isCreation.named
  rw [identifierOf, named, same]
  rfl

end IsCreation

namespace DescribesModel

/-- A constructor is defined for the identifier of each model with data, and for no other. -/
theorem mem_idents_iff (describes : DescribesModel m type c) {ident : String} :
    ident ∈ c.creations.map Creation.ident ↔
      ∃ t ∈ c.models, hasData m t = true ∧ identifierOf m t = .ok ident := by
  obtain ⟨ofModels, ofCreations⟩ := exists_of_forall₂ describes.creations
  rw [List.mem_map]
  constructor
  · rintro ⟨creation, mem, rfl⟩
    obtain ⟨t, listed, isCreation⟩ := ofCreations creation mem
    obtain ⟨placed, has⟩ := List.mem_filter.mp listed
    exact ⟨t, placed, has, isCreation.identifierOf_eq⟩
  · rintro ⟨t, placed, has, named⟩
    obtain ⟨creation, mem, isCreation⟩ := ofModels t (List.mem_filter.mpr ⟨placed, has⟩)
    exact ⟨creation, mem, Except.ok.inj (isCreation.identifierOf_eq.symm.trans named)⟩

theorem mem_names_iff (describes : DescribesModel m type c) {ident : String} :
    createName ident ∈ c.names ↔
      ∃ t ∈ c.models, hasData m t = true ∧ identifierOf m t = .ok ident := by
  rw [← describes.mem_idents_iff, c.perm_names.mem_iff, List.mem_append, List.mem_append,
    ModelLayout.createNames, List.mem_map_of_injective createName_injective]
  refine ⟨fun mem => ?_, fun mem => .inl (.inl mem)⟩
  rcases mem with (constructor | array) | fixed
  · exact constructor
  · obtain ⟨array, _, same⟩ := List.mem_map.mp array
    have starts := congrArg start same
    rw [start_arrayName, start_createName] at starts
    cases starts
  · exact absurd (start_createName ident) (ModelLayout.start_of_mem_fixedNames fixed).1

/-- All functions of the contract have different names. -/
theorem nodup_names (describes : DescribesModel m type c) (verified : m.Verified) : c.names.Nodup := by
  have declares : m.schema.Declares type := ⟨_, describes.declared⟩
  obtain ⟨nodup, _⟩ := laidOut_ok verified declares describes.placed
  have idents : (c.creations.map Creation.ident).Nodup := by
    have named : List.Forall₂ (fun t ident => identifierOf m t = .ok ident)
        (c.models.filter (hasData m)) (c.creations.map Creation.ident) :=
      List.forall₂_map_right_iff.mpr
        (describes.creations.imp fun _ _ isCreation => isCreation.identifierOf_eq)
    refine (nodup_iff_of_forall₂ named (fun t a b isA isB => ?_) (nodup.filter _)).mpr ?_
    · exact Except.ok.inj (isB.symm.trans isA)
    · intro t mem t' mem' ident isIdent isIdent'
      exact identifierOf_inj verified (declares_of_hasData (List.of_mem_filter mem'))
        (declares_of_hasData (List.of_mem_filter mem)) isIdent' isIdent
  have creates : c.createNames.Nodup := idents.map createName_injective
  have arrays : c.arrayNames.Nodup := by
    have numbers : ((c.creations.flatMap Creation.arrays).map ArrayInitialiser.number).Nodup :=
      describes.numbered ▸ List.nodup_range' (h := Nat.one_pos) ..
    have named : c.arrayNames =
        ((c.creations.flatMap Creation.arrays).map ArrayInitialiser.number).map arrayName := by
      rw [ModelLayout.arrayNames, List.map_map]
      rfl
    exact named ▸ numbers.map arrayName_injective
  have fixed : c.fixedNames.Nodup := c.fixedNames_sublist.nodup (by decide)
  rw [c.perm_names.nodup_iff, List.nodup_append, List.nodup_append]
  refine ⟨⟨creates, arrays, fun name constructor other array same => ?_⟩, fixed,
    fun name made other operation same => ?_⟩
  · obtain ⟨ident, _, rfl⟩ := List.mem_map.mp constructor
    obtain ⟨initialiser, _, rfl⟩ := List.mem_map.mp array
    have starts := congrArg start same
    rw [start_createName, start_arrayName] at starts
    cases starts
  · subst same
    obtain ⟨noConstructor, noArray⟩ := ModelLayout.start_of_mem_fixedNames operation
    rcases List.mem_append.mp made with constructor | array
    · obtain ⟨ident, _, rfl⟩ := List.mem_map.mp constructor
      exact noConstructor (start_createName ident)
    · obtain ⟨initialiser, _, rfl⟩ := List.mem_map.mp array
      exact noArray (start_arrayName _)

/-- The constructor of the contract's own type is defined. -/
theorem own_mem_names (describes : DescribesModel m type c) (verified : m.Verified) :
    createName c.ident ∈ c.names := by
  obtain ⟨_, mem⟩ := laidOut_ok verified ⟨_, describes.declared⟩ describes.placed
  obtain ⟨names, named, _, ident, _⟩ := describes.named
  refine describes.mem_names_iff.mpr ⟨type, (mem type).mpr .refl, ?_, ?_⟩
  · rw [hasData, describes.refers]
    rfl
  · rw [identifierOf, named, ident]
    rfl

/-- The constructor that fills a list is defined exactly if the elements of the list are models. -/
theorem element_mem_names_iff (describes : DescribesModel m type c) (verified : m.Verified)
    {creation : Creation} (listed : creation ∈ c.creations) {element : EntityId} {ident : String}
    (fills : .models element ident ∈ creation.fillings) :
    createName ident ∈ c.names ↔ IsModel m element := by
  obtain ⟨owner, kept, isCreation⟩ := (exists_of_forall₂ describes.creations).2 creation listed
  obtain ⟨data, dataEntity, _, _, _, filled⟩ := isCreation.filled
  obtain ⟨field, declared, fills⟩ := (exists_of_forall₂ filled).2 _ fills
  cases fills with
  | models _ _ shared named =>
      obtain ⟨list, has⟩ := sharedListElement?_eq_some shared
      have stores : m.schema.Stores false owner element :=
        ⟨creation.entity, isCreation.declared, field, declared, list ▸ .list (.embedded element)⟩
      rw [← mem_laidOut_iff verified ⟨_, describes.declared⟩ describes.placed
        (List.mem_of_mem_filter kept) stores, describes.mem_names_iff]
      constructor
      · rintro ⟨t, placed, has', named'⟩
        rwa [identifierOf_inj verified (declares_of_hasData has) (declares_of_hasData has') named
          named']
      · exact fun placed => ⟨element, placed, has, named⟩

end DescribesModel

/-- The models whose records the lists in a record of a model hold by id: the elements of its list
fields without a default whose data has a list of the same name. -/
def mirrored (m : ResolvedModel) (owner : EntityId) : List EntityId :=
  match m.schema.entity? owner, (m.dataType? owner).bind m.schema.entity? with
  | some entity, some data => (entity.fields.filter fun field =>
      field.name ≠ "data" ∧ field.presence.default?.getD .nil = .nil).filterMap
        (sharedListElement? m data)
  | _, _ => []

theorem hasData_of_mirrored {owner element : EntityId} (mem : element ∈ mirrored m owner) :
    hasData m owner = true := by
  cases refers : m.dataType? owner with
  | none => simp [mirrored, refers] at mem
  | some data => simp [hasData, refers]

namespace IsCreation

theorem mem_mirrored {creation : Creation} (isCreation : IsCreation m type creation)
    {element : EntityId} {ident : String} (fills : .models element ident ∈ creation.fillings) :
    element ∈ mirrored m type := by
  obtain ⟨data, dataEntity, refers, declared, _, filled⟩ := isCreation.filled
  rw [mirrored, isCreation.declared, refers, Option.bind_some, declared]
  obtain ⟨field, listed, fills⟩ := (exists_of_forall₂ filled).2 _ fills
  cases fills with
  | models other absent shared =>
      refine List.mem_filterMap.mpr ⟨field, List.mem_filter.mpr ⟨listed, ?_⟩, shared⟩
      exact decide_eq_true ⟨other, absent⟩

/-- A list that mirrors a list of the data is filled. -/
theorem exists_fills {creation : Creation} (isCreation : IsCreation m type creation)
    {element : EntityId} (mem : element ∈ mirrored m type) :
    ∃ ident, identifierOf m element = .ok ident ∧ .models element ident ∈ creation.fillings := by
  obtain ⟨data, dataEntity, refers, declared, _, filled⟩ := isCreation.filled
  rw [mirrored, isCreation.declared, refers, Option.bind_some, declared] at mem
  obtain ⟨field, kept, shared⟩ := List.mem_filterMap.mp mem
  obtain ⟨listed, free⟩ := List.mem_filter.mp kept
  obtain ⟨other, absent⟩ := of_decide_eq_true free
  obtain ⟨filling, mem, fills⟩ := (exists_of_forall₂ filled).1 field listed
  cases fills with
  | data isData => exact absurd isData other
  | default _ present nonnil =>
      rw [present, Option.getD_some] at absent
      exact absurd absent nonnil
  | zero _ _ unshared => cases unshared.symm.trans shared
  | @models element' ident _ _ shared' named =>
      cases shared'.symm.trans shared
      exact ⟨ident, named, mem⟩

end IsCreation

/-- **Contracts call the constructors that they define, as far as they list models.** A contract of a
model is made of its functions, which have different names. The constructors that it calls, to mint a
record and to fill its lists, are all among them exactly if the elements of these lists are models. -/
theorem constructors_called_iff (reachable : schema.Reachable) (filled : instances.Filled)
    (built : ResolvedModel.build schema instances = .ok m) {source : Source}
    (written : modelContract m type = .ok source) :
    ∃ c, DescribesModel m type c ∧ source = c.written ∧ c.names.Nodup ∧
      ((∀ call ∈ c.calls, call ∈ c.names) ↔
        ∀ owner ∈ c.models, ∀ element ∈ mirrored m owner, IsModel m element) := by
  have verified := ResolvedModel.verified_of_build reachable.consistent filled built
  obtain ⟨c, describes, rfl⟩ := exists_modelLayout written
  obtain ⟨ofModels, ofCreations⟩ := exists_of_forall₂ describes.creations
  refine ⟨c, describes, rfl, describes.nodup_names verified, fun defined => ?_, fun models => ?_⟩
  · intro owner placed element mem
    obtain ⟨creation, listed, isCreation⟩ :=
      ofModels owner (List.mem_filter.mpr ⟨placed, hasData_of_mirrored mem⟩)
    obtain ⟨ident, _, fills⟩ := isCreation.exists_fills mem
    refine (describes.element_mem_names_iff verified listed fills).mp (defined _ ?_)
    refine List.mem_cons_of_mem _ (List.mem_flatMap.mpr ⟨creation, listed, ?_⟩)
    exact List.mem_filterMap.mpr ⟨_, fills, rfl⟩
  · intro call mem
    rcases List.mem_cons.mp mem with rfl | called
    · exact describes.own_mem_names verified
    · obtain ⟨creation, listed, called⟩ := List.mem_flatMap.mp called
      obtain ⟨filling, fills, found⟩ := List.mem_filterMap.mp called
      obtain ⟨owner, kept, isCreation⟩ := ofCreations creation listed
      cases filling with
      | zero | data | default l => cases found
      | models element ident =>
          cases found
          exact (describes.element_mem_names_iff verified listed fills).mpr
            (models owner (List.mem_of_mem_filter kept) element (isCreation.mem_mirrored fills))

/-- A schema with a model that lists slots, as its data does. The slots are models or not. -/
def slots (root : Option RootKind) : List Call := [
  .schema (.declare { name := "SlotData", root := some .dataCatalog }),
  .schema (.declare {
    name := "HeroData", fields := [{ name := "slots", type := .list (.reference ⟨0⟩) }]
    root := some .dataCatalog }),
  .schema (.declare { name := "Slot", fields := [{ name := "data", type := .reference ⟨0⟩ }], root }),
  .schema (.declare {
    name := "HeroModel"
    fields := [
      { name := "data", type := .reference ⟨1⟩ }, { name := "slots", type := .list (.embedded ⟨2⟩) }]
    annotations := { nft := true }, root := some .model }),
  .close]

/-- What calls the constructor of slots. -/
def slotCall : SourceLine := .plain "hero_model.slots[i] = create_slot(slots[i]);"

/-- Whether the model of a schema is rendered and its fourth type is a model that lists its third, and
calls its constructor. -/
def callsSlots (schema : Registry) (instances : InstanceRegistry) : Except Error Bool := do
  let m ← ResolvedModel.build schema instances
  let paths ← contractPaths m
  let source ← modelContract m ⟨3⟩
  let models ← laidOut m ⟨3⟩
  let ident ← identifierOf m ⟨2⟩
  return OutputTree.Writable paths ∧ m.category? ⟨3⟩ = some .model ∧ slotCall ∈ source ∧
    ident = "slot" ∧ ⟨3⟩ ∈ models ∧ ⟨2⟩ ∈ mirrored m ⟨3⟩ ∧
    ∀ owner ∈ models, ∀ element ∈ mirrored m owner, element = ⟨2⟩

theorem exists_callsSlots (root : Option RootKind)
    (calls : callsSlots (History.run (slots root)).schema (History.run (slots root)).instances =
      .ok true) : ∃ m tree source models,
    ResolvedModel.build (History.run (slots root)).schema (History.run (slots root)).instances =
        .ok m ∧
      emit m = .ok tree ∧ m.category? ⟨3⟩ = some .model ∧ modelContract m ⟨3⟩ = .ok source ∧
      slotCall ∈ source ∧ laidOut m ⟨3⟩ = .ok models ∧ identifierOf m ⟨2⟩ = .ok "slot" ∧
      ⟨3⟩ ∈ models ∧ ⟨2⟩ ∈ mirrored m ⟨3⟩ ∧
      ∀ owner ∈ models, ∀ element ∈ mirrored m owner, element = ⟨2⟩ := by
  obtain ⟨m, built, run⟩ := bind_eq_ok_iff.mp calls
  obtain ⟨paths, named, run⟩ := bind_eq_ok_iff.mp run
  obtain ⟨source, written, run⟩ := bind_eq_ok_iff.mp run
  obtain ⟨models, placed, run⟩ := bind_eq_ok_iff.mp run
  obtain ⟨ident, ofSlot, checked⟩ := bind_eq_ok_iff.mp run
  obtain ⟨writable, isModel, called, rfl, listed⟩ := of_decide_eq_true (Except.ok.inj checked)
  obtain ⟨tree, emitted, _⟩ := exists_emit_contracts named writable
  exact ⟨m, tree, source, models, built, emitted, isModel, written, called, placed, ofSlot, listed⟩

theorem constructors_called_iff_slots : ∃ m tree source c,
    ResolvedModel.build (History.run (slots (some .model))).schema
        (History.run (slots (some .model))).instances = .ok m ∧
      emit m = .ok tree ∧ m.category? ⟨3⟩ = some .model ∧ modelContract m ⟨3⟩ = .ok source ∧
      slotCall ∈ source ∧ DescribesModel m ⟨3⟩ c ∧ source = c.written ∧ c.names.Nodup ∧
      ∀ call ∈ c.calls, call ∈ c.names := by
  obtain ⟨m, tree, source, models, built, emitted, isModel, written, called, placed, _, _, _, sole⟩ :=
    exists_callsSlots (some .model) (by decide +kernel)
  obtain ⟨c, describes, made, nodup, defined⟩ := constructors_called_iff
    (History.run_sound (slots (some .model))).reachable (History.filled_run (slots (some .model)))
    built written
  refine ⟨m, tree, source, c, built, emitted, isModel, written, called, describes, made, nodup,
    defined.mpr fun owner listed element mem => ?_⟩
  cases placed.symm.trans describes.placed
  rw [sole owner listed element mem, IsModel, (ResolvedModel.of_build built).1]
  exact ⟨_, rfl, rfl⟩

/-- **A contract may call a constructor that it does not define**: nothing asks whether the elements of
a list are models. -/
theorem constructor_undefined : ∃ m tree source c,
    ResolvedModel.build (History.run (slots none)).schema (History.run (slots none)).instances =
        .ok m ∧
      emit m = .ok tree ∧ m.category? ⟨3⟩ = some .model ∧ modelContract m ⟨3⟩ = .ok source ∧
      slotCall ∈ source ∧ DescribesModel m ⟨3⟩ c ∧ source = c.written ∧
      createName "slot" ∈ c.calls ∧ createName "slot" ∉ c.names := by
  obtain ⟨m, tree, source, models, built, emitted, isModel, written, called, placed, named, own,
    mirrors, _⟩ := exists_callsSlots none (by decide +kernel)
  have verified := ResolvedModel.verified_of_build (History.run_sound (slots none)).reachable.consistent
    (History.filled_run (slots none)) built
  obtain ⟨c, describes, made⟩ := exists_modelLayout written
  cases placed.symm.trans describes.placed
  obtain ⟨creation, listed, isCreation⟩ := (exists_of_forall₂ describes.creations).1 ⟨3⟩
    (List.mem_filter.mpr ⟨own, hasData_of_mirrored mirrors⟩)
  obtain ⟨ident, named', fills⟩ := isCreation.exists_fills mirrors
  cases named.symm.trans named'
  refine ⟨m, tree, source, c, built, emitted, isModel, written, called, describes, made, ?_, ?_⟩
  · refine List.mem_cons_of_mem _ (List.mem_flatMap.mpr ⟨creation, listed, ?_⟩)
    exact List.mem_filterMap.mpr ⟨_, fills, rfl⟩
  · rw [describes.element_mem_names_iff verified listed fills, IsModel,
      (ResolvedModel.of_build built).1]
    rintro ⟨entity, declared, kind⟩
    have struct : ∀ entity, (History.run (slots none)).schema.entity? ⟨2⟩ = some entity →
        entity.kind ≠ .model := by
      decide
    exact struct entity declared kind

end EntityForge.Solidity
