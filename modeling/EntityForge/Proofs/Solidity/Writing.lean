import EntityForge.Proofs.Schema.Validation
import EntityForge.Proofs.Solidity.Arrays

/-!
Literals without the states that they are built in. `Writes` says which literal a value has, given the
array initialisers of a contract: a list is a call of one of them, which holds the literals of the
items. What is said of the literals of all values is said by induction on it. What is built, and which
initialisers it adds, is in `EntityForge.Proofs.Solidity.ArrayCalls`.
-/

namespace EntityForge.Solidity

variable {m : ResolvedModel} {arrays : List ArrayInitialiser} {type : FieldType}

/-! ### Zero values -/

/-- The zero value of a type. -/
inductive IsZero (m : ResolvedModel) : FieldType → Literal → Prop where
  | int : IsZero m (.scalar .int) (.number 0)
  | string : IsZero m (.scalar .string) (.text "")
  | reference (target : EntityId) : IsZero m (.reference target) (.number 0)
  | optional {inner : FieldType} {l : Literal} : IsZero m inner l → IsZero m (.optional inner) l
  | list {element : FieldType} {t : SolType} : solType m element = .ok t →
      IsZero m (.list element) (.emptyArray t)
  | byId {target : EntityId} : storedById m target = .ok true →
      IsZero m (.embedded target) (.number 0)
  | struct {target : EntityId} {entity : EntityType} {struct : String}
      {members : List (String × Literal)} : storedById m target = .ok false →
      m.schema.entity? target = some entity → structName m target = .ok struct →
      entity.fields.map (fun field => memberName field.name) = members.map Prod.fst →
      (∀ field member, (field, member) ∈ entity.fields.zip members →
        IsZero m field.type member.2) →
      IsZero m (.embedded target) (.struct struct
        (members ++ if entity.annotations.fungible then [("_token_id", .number 0)] else []))

/-- Every zero value that is built is that of its type. -/
theorem isZero_of_zero (chain : List EntityId) (type : FieldType) : ∀ l,
    zero m chain type = .ok l → IsZero m type l := by
  refine zero.induct m
    (fun chain type => ∀ l, zero m chain type = .ok l → IsZero m type l)
    (fun chain target => ∀ l, storedById m target = .ok false →
      zeroStruct m chain target = .ok l → IsZero m (.embedded target) l)
    ?int ?reference ?string ?optional ?list ?unknown ?byId ?struct ?map ?undeclared ?cycle ?members
    chain type
  case int =>
    intro chain l run
    rw [zero] at run
    cases run
    exact .int
  case reference =>
    intro chain target l run
    rw [zero] at run
    cases run
    exact .reference target
  case string =>
    intro chain l run
    rw [zero] at run
    cases run
    exact .string
  case optional =>
    intro chain inner ih l run
    rw [zero] at run
    exact .optional (ih l run)
  case list =>
    intro chain element l run
    rw [zero] at run
    obtain ⟨t, typed, last⟩ := bind_eq_ok_iff.mp run
    cases last
    exact .list typed
  case unknown =>
    intro chain target e failed l run
    rw [zero, failed] at run
    cases run
  case byId =>
    intro chain target byId l run
    rw [zero, byId] at run
    cases run
    exact .byId byId
  case struct =>
    intro chain target inPlace ih l run
    rw [zero, inPlace] at run
    exact ih l inPlace run
  case map =>
    intro chain key value l run
    rw [zero] at run
    cases run
  case undeclared =>
    intro chain target e failed l inPlace run
    rw [zeroStruct_eq, failed] at run
    cases run
  case cycle =>
    intro chain target entity found onChain l inPlace run
    rw [zeroStruct_eq] at run
    obtain ⟨_, _, run⟩ := bind_eq_ok_iff.mp run
    rw [if_pos onChain] at run
    cases run
  case members =>
    intro chain target entity found fresh _ ih l inPlace run
    rw [zeroStruct_of_notMem found fresh] at run
    obtain ⟨members, computed, run⟩ := bind_eq_ok_iff.mp run
    obtain ⟨struct, named, last⟩ := bind_eq_ok_iff.mp run
    cases last
    have each : List.Forall₂ (fun field member => memberName field.name = member.1 ∧
        IsZero m field.type member.2) entity.fields members := by
      refine (mapM_eq_ok_iff.mp computed).imp fun field member here => ?_
      obtain ⟨l, written, last⟩ := bind_eq_ok_iff.mp here
      cases last
      exact ⟨rfl, ih field l written⟩
    obtain ⟨names, zeros⟩ := forall₂_eq_and_iff.mp each
    exact .struct inPlace (Registry.get_eq_ok_iff.mp found) named names zeros

/-! ### Values -/

/-- The literal of a value of a type, where the initialisers of its lists are among the given ones. A
field that a record does not set has the literal of nil. -/
inductive Writes (m : ResolvedModel) (arrays : List ArrayInitialiser) :
    FieldType → Value → Literal → Prop where
  | nil {type : FieldType} {l : Literal} : IsZero m type l → Writes m arrays type .nil l
  | int {type : FieldType} (n : Int) : type.unwrap = .scalar .int →
      Writes m arrays type (.int n) (.number n)
  | string {type : FieldType} (text : String) : type.unwrap = .scalar .string →
      Writes m arrays type (.string text) (.text text)
  | ref {type : FieldType} {target : EntityId} {r : Reference} {key : InstanceKey} :
      type.unwrap = .reference target → m.resolve r = .ok key →
      Writes m arrays type (.ref r) (.ordinal key.ordinal)
  | list {type element : FieldType} {items : List Value} {array : ArrayInitialiser} :
      type.unwrap = .list element → array ∈ arrays → solType m element = .ok array.element →
      items.length = array.items.length →
      (∀ item l, (item, l) ∈ items.zip array.items → Writes m arrays element item l) →
      Writes m arrays type (.list items) (.arrayCall array.number)
  | record {type : FieldType} {target actual : EntityId} {entity : EntityType} {struct : String}
      {fields : List (String × Value)} {members : List (String × Literal)} :
      type.unwrap = .embedded target → m.schema.entity? actual = some entity →
      structName m actual = .ok struct →
      entity.fields.map (fun field => memberName field.name) = members.map Prod.fst →
      (∀ field member, (field, member) ∈ entity.fields.zip members →
        Writes m arrays field.type ((SortedMap.find? compare field.name fields).getD .nil) member.2) →
      Writes m arrays type (.record actual fields) (.struct struct
        (members ++ if entity.annotations.fungible then [("_token_id", .number 0)] else []))

/-- More initialisers do not change what a literal is. -/
theorem Writes.mono {arrays' : List ArrayInitialiser} {value : Value} {l : Literal}
    (writes : Writes m arrays type value l) (subset : arrays ⊆ arrays') :
    Writes m arrays' type value l := by
  induction writes with
  | nil zero => exact .nil zero
  | int n fits => exact .int n fits
  | string text fits => exact .string text fits
  | ref fits resolved => exact .ref fits resolved
  | list fits mem typed lengths _ ih => exact .list fits (subset mem) typed lengths ih
  | record fits declared named names _ ih => exact .record fits declared named names ih

end EntityForge.Solidity
