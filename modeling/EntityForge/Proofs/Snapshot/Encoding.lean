import EntityForge.Proofs.MessagePack.Records

/-!
Snapshots are read back from their bytes. Each part of a snapshot is written as a value that is read
back as the part, and that fits the forms of MessagePack when the part is within words of 32 bits.
The value of the whole is then at the front of any bytes that begin with the encoding
(`decode_encode_append`).
-/

namespace EntityForge

/-! ### Bounds -/

/-- The length of a text in bytes is a word of 32 bits. -/
def ShortText (t : String) : Prop := (MessagePack.utf8 t).length < 0x100000000

/-- The identities and their number are words of 32 bits. -/
structure ShortIds (ids : List EntityId) : Prop where
  length_lt : ids.length < 0x100000000
  index_lt : ∀ id ∈ ids, id.index < 0x100000000

/-- The identities of a set in ascending order. -/
structure ShortSet (ids : List EntityId) : Prop extends ShortIds ids where
  ascending : ids.Pairwise (·.index < ·.index)

instance (t : String) : Decidable (ShortText t) := inferInstanceAs (Decidable (_ < _))

instance (ids : List EntityId) : Decidable (ShortIds ids) :=
  decidable_of_iff (ids.length < 0x100000000 ∧ ∀ id ∈ ids, id.index < 0x100000000)
    ⟨fun short => ⟨short.1, short.2⟩, fun short => ⟨short.length_lt, short.index_lt⟩⟩

instance (ids : List EntityId) : Decidable (ShortSet ids) :=
  decidable_of_iff (ShortIds ids ∧ ids.Pairwise (·.index < ·.index))
    ⟨fun short => ⟨short.1, short.2⟩, fun short => ⟨short.toShortIds, short.ascending⟩⟩

structure Names.Fits (names : Names) : Prop where
  canonical : ShortText names.canonical
  canonicalPlural : ShortText names.canonicalPlural
  identifier : ShortText names.identifier
  identifierPlural : ShortText names.identifierPlural
  camel : ShortText names.camel
  camelPlural : ShortText names.camelPlural

structure Dependencies.Fits (d : Dependencies) : Prop where
  direct : ShortSet d.direct
  transitive : ShortSet d.transitive
  reachable : ShortSet d.reachable
  layoutOrder : ShortIds d.layoutOrder

structure TypeFacts.Fits (t : TypeFacts) : Prop where
  id : t.id.index < 0x100000000
  name : ShortText t.name
  names : t.names.Fits
  dependencies : t.dependencies.Fits

structure PolymorphicGroup.Fits (g : PolymorphicGroup) : Prop where
  base : g.base.index < 0x100000000
  variants : ShortIds g.variants

structure TokenFacts.Fits (t : TokenFacts) : Prop where
  entity : ShortText t.entity
  id : ShortText t.id
  tokenId : t.tokenId < 0x100000000

/-- All numbers of a snapshot, the lengths of its texts and those of its lists are words of 32
bits, and its sets are in ascending order. -/
structure Snapshot.Fits (s : Snapshot) : Prop where
  types_length : s.types.length < 0x100000000
  types : ∀ t ∈ s.types, t.Fits
  groups_length : s.groups.length < 0x100000000
  groups : ∀ g ∈ s.groups, g.Fits
  tokens_length : s.tokens.length < 0x100000000
  tokens : ∀ t ∈ s.tokens, t.Fits

namespace Snapshot

open MessagePack

variable {depth : Nat}

/-! ### Parts -/

theorem fits_text {t : String} (short : ShortText t) : MessagePack.Fits depth (text t) :=
  .string short

theorem fits_word {n : Nat} (bound : n < 0x100000000) : MessagePack.Fits depth (.natural n) :=
  .natural (Nat.lt_trans bound (by decide))

/-- A structure of few fields fits if the values of its fields do. -/
theorem fits_record (names : List String) {fields : List (String × MessagePack)}
    (named : fields.map Prod.fst = names)
    (short : names.length < 0x100000000 ∧ ∀ name ∈ names, (utf8 name).length < 0x100000000)
    (values : ∀ value ∈ fields.map Prod.snd, MessagePack.Fits depth value) :
    MessagePack.Fits (depth + 1) (MessagePack.record fields) := by
  subst named
  refine .map ?_ ?_ ?_
  · rw [List.length_map]
    rw [List.length_map] at short
    exact short.1
  · intro entry mem
    obtain ⟨field, listed, rfl⟩ := List.mem_map.mp mem
    exact .string (short.2 field.1 (List.mem_map_of_mem listed))
  · intro entry mem
    obtain ⟨field, listed, rfl⟩ := List.mem_map.mp mem
    exact values field.2 (List.mem_map_of_mem listed)

theorem fits_list {α : Type} {write : α → MessagePack} {items : List α}
    (short : items.length < 0x100000000) (each : ∀ a ∈ items, MessagePack.Fits depth (write a)) :
    MessagePack.Fits (depth + 1) (.array (items.map write)) := by
  refine .array (by rwa [List.length_map]) fun value mem => ?_
  obtain ⟨a, listed, rfl⟩ := List.mem_map.mp mem
  exact each a listed

theorem fits_idsValue {ids : List EntityId} (fits : ShortIds ids) :
    MessagePack.Fits (depth + 1) (idsValue ids) :=
  fits_list fits.length_lt fun id mem => fits_word (fits.index_lt id mem)

theorem word?_natural {n : Nat} (bound : n < 0x100000000) : (natural n).word? = some n :=
  if_pos bound

theorem id?_natural {id : EntityId} (bound : id.index < 0x100000000) :
    id? (.natural id.index) = some id := by
  rw [id?, word?_natural bound]
  rfl

theorem ids?_idsValue {ids : List EntityId} (fits : ShortIds ids) :
    ids? (idsValue ids) = some ids :=
  listOf?_array fun id mem => id?_natural (fits.index_lt id mem)

/-- Sorting leaves what is in ascending order. -/
theorem sorted_eq_self {ids : List EntityId} (ascending : ids.Pairwise (·.index < ·.index)) :
    EntityId.sorted ids = ids := by
  induction ids with
  | nil => rfl
  | cons id rest ih =>
      obtain ⟨first, others⟩ := List.pairwise_cons.mp ascending
      have sorted : EntityId.sorted (id :: rest) = EntityId.insertSorted id rest :=
        congrArg (EntityId.insertSorted id) (ih others)
      rw [sorted]
      cases rest with
      | nil => rfl
      | cons next rest => exact if_pos (first next List.mem_cons_self)

theorem idSet?_idsValue {ids : List EntityId} (fits : ShortSet ids) :
    idSet? (idsValue ids) = some ids := by
  rw [idSet?, ids?_idsValue fits.toShortIds, Option.map_some, sorted_eq_self fits.ascending]

theorem category?_word (c : Category) : category? (text c.word) = some c := by
  cases c <;> decide

/-! ### Structures -/

theorem names?_namesValue (names : Names) : names? (namesValue names) = some names := by
  have found : fieldValues? ["canonical", "canonical_plural", "identifier", "identifier_plural",
      "camel", "camel_plural"] (namesValue names) = some [text names.canonical,
        text names.canonicalPlural, text names.identifier, text names.identifierPlural,
        text names.camel, text names.camelPlural] :=
    fieldValues?_record (by simp)
  simp [names?, found]

theorem fits_namesValue {names : Names} (fits : names.Fits) :
    MessagePack.Fits (depth + 1) (namesValue names) := by
  refine fits_record ["canonical", "canonical_plural", "identifier", "identifier_plural",
    "camel", "camel_plural"] rfl (by decide) ?_
  simpa using ⟨fits_text fits.canonical, fits_text fits.canonicalPlural, fits_text fits.identifier,
    fits_text fits.identifierPlural, fits_text fits.camel, fits_text fits.camelPlural⟩

theorem dependencies?_dependenciesValue {d : Dependencies} (fits : d.Fits) :
    dependencies? (dependenciesValue d) = some d := by
  have found : fieldValues? ["direct", "transitive", "reachable", "layout_order"]
      (dependenciesValue d) = some [idsValue d.direct, idsValue d.transitive,
        idsValue d.reachable, idsValue d.layoutOrder] :=
    fieldValues?_record (by simp)
  simp [dependencies?, found, idSet?_idsValue fits.direct, idSet?_idsValue fits.transitive,
    idSet?_idsValue fits.reachable, ids?_idsValue fits.layoutOrder]

theorem fits_dependenciesValue {d : Dependencies} (fits : d.Fits) :
    MessagePack.Fits (depth + 2) (dependenciesValue d) := by
  refine fits_record ["direct", "transitive", "reachable", "layout_order"] rfl
    (by decide) ?_
  simpa using ⟨fits_idsValue fits.direct.toShortIds, fits_idsValue fits.transitive.toShortIds,
    fits_idsValue fits.reachable.toShortIds, fits_idsValue fits.layoutOrder⟩

theorem typeFacts?_typeValue {t : TypeFacts} (fits : t.Fits) :
    typeFacts? (typeValue t) = some t := by
  have found : fieldValues? ["id", "name", "category", "names", "dependencies"] (typeValue t) =
      some [.natural t.id.index, text t.name, text t.category.word, namesValue t.names,
        dependenciesValue t.dependencies] :=
    fieldValues?_record (by simp)
  simp [typeFacts?, found, id?_natural fits.id, category?_word, names?_namesValue,
    dependencies?_dependenciesValue fits.dependencies]

theorem fits_category (c : Category) : MessagePack.Fits depth (text c.word) :=
  fits_text (by cases c <;> decide)

theorem fits_typeValue {t : TypeFacts} (fits : t.Fits) :
    MessagePack.Fits (depth + 3) (typeValue t) := by
  refine fits_record ["id", "name", "category", "names", "dependencies"] rfl
    (by decide) ?_
  simpa using ⟨fits_word fits.id, fits_text fits.name, fits_category t.category,
    fits_namesValue fits.names, fits_dependenciesValue fits.dependencies⟩

theorem group?_groupValue {g : PolymorphicGroup} (fits : g.Fits) :
    group? (groupValue g) = some g := by
  have found : fieldValues? ["base", "variants"] (groupValue g) =
      some [.natural g.base.index, idsValue g.variants] :=
    fieldValues?_record (by simp)
  simp [group?, found, id?_natural fits.base, ids?_idsValue fits.variants]

theorem fits_groupValue {g : PolymorphicGroup} (fits : g.Fits) :
    MessagePack.Fits (depth + 2) (groupValue g) := by
  refine fits_record ["base", "variants"] rfl (by decide) ?_
  simpa using ⟨fits_word fits.base, fits_idsValue fits.variants⟩

theorem tokenFacts?_tokenValue {t : TokenFacts} (fits : t.Fits) :
    tokenFacts? (tokenValue t) = some t := by
  have found : fieldValues? ["entity", "id", "token_id"] (tokenValue t) =
      some [text t.entity, text t.id, .natural t.tokenId] :=
    fieldValues?_record (by simp)
  simp [tokenFacts?, found, word?_natural fits.tokenId]

theorem fits_tokenValue {t : TokenFacts} (fits : t.Fits) :
    MessagePack.Fits (depth + 1) (tokenValue t) := by
  refine fits_record ["entity", "id", "token_id"] rfl (by decide) ?_
  simpa using ⟨fits_text fits.entity, fits_text fits.id, fits_word fits.tokenId⟩

/-! ### Snapshots -/

variable {s : Snapshot}

theorem ofMessagePack?_toMessagePack (fits : s.Fits) :
    ofMessagePack? s.toMessagePack = some s := by
  have found : fieldValues? ["types", "groups", "tokens"] s.toMessagePack =
      some [.array (s.types.map typeValue), .array (s.groups.map groupValue),
        .array (s.tokens.map tokenValue)] :=
    fieldValues?_record (by simp)
  have types := listOf?_array fun t mem => typeFacts?_typeValue (fits.types t mem)
  have groups := listOf?_array fun g mem => group?_groupValue (fits.groups g mem)
  have tokens := listOf?_array fun t mem => tokenFacts?_tokenValue (fits.tokens t mem)
  simp [ofMessagePack?, found, types, groups, tokens]

theorem fits_toMessagePack (fits : s.Fits) : MessagePack.Fits (depth + 5) s.toMessagePack := by
  refine fits_record ["types", "groups", "tokens"] rfl (by decide) ?_
  simpa using ⟨fits_list fits.types_length fun t mem => fits_typeValue (fits.types t mem),
    fits_list fits.groups_length fun g mem => fits_groupValue (fits.groups g mem),
    fits_list fits.tokens_length fun t mem => fits_tokenValue (fits.tokens t mem)⟩

/-- **Snapshots survive encoding.** The bytes of a snapshot are read back as the snapshot, whatever
follows them, so no other snapshot has the same bytes. -/
theorem decode_encode_append (fits : s.Fits) :
    (∀ rest, decode (s.encode ++ rest) = .ok s) ∧
      ∀ other : Snapshot, other.Fits → other.encode = s.encode → other = s := by
  have read : ∀ {s : Snapshot}, s.Fits → ∀ rest, decode (s.encode ++ rest) = .ok s := by
    intro s fits rest
    have taken : takeValue maxDepth (s.encode ++ rest) = some (s.toMessagePack, rest) :=
      reads_encode (fits_toMessagePack fits) rest
    have value : MessagePack.decode (s.encode ++ rest) = some s.toMessagePack := by
      rw [MessagePack.decode, taken]
      rfl
    rw [decode, value, Option.bind_some, ofMessagePack?_toMessagePack fits]
  refine ⟨read fits, fun other fits' same => ?_⟩
  have mine := read fits []
  rw [← same, read fits' []] at mine
  exact Except.ok.inj mine

/-- A currency that a hero refers to, with one token. -/
def coinSnapshot : Snapshot where
  types := [{
    id := ⟨1⟩
    name := "CoinData"
    category := .staticData
    names := Names.derive "CoinData"
    dependencies := {
      direct := [⟨2⟩, ⟨300⟩], transitive := [], reachable := [⟨4⟩, ⟨70000⟩]
      layoutOrder := [⟨70000⟩, ⟨4⟩] } }]
  groups := [{ base := ⟨0⟩, variants := [⟨1⟩] }]
  tokens := [{ entity := "CoinData", id := "gold", tokenId := 200 }]

theorem decode_encode_append_coin :
    decode (coinSnapshot.encode ++ [0xc1, 0x00]) = .ok coinSnapshot := by
  have names : (Names.derive "CoinData").Fits := by
    constructor <;> decide
  have dependencies : (Dependencies.mk [⟨2⟩, ⟨300⟩] [] [⟨4⟩, ⟨70000⟩] [⟨70000⟩, ⟨4⟩]).Fits := by
    constructor <;> decide
  refine (decode_encode_append ⟨by decide, ?_, by decide, ?_, by decide, ?_⟩).1 _
  · exact List.forall_mem_singleton.mpr ⟨by decide, by decide, names, dependencies⟩
  · exact List.forall_mem_singleton.mpr ⟨by decide, by decide⟩
  · exact List.forall_mem_singleton.mpr ⟨by decide, by decide, by decide⟩

end Snapshot

end EntityForge
