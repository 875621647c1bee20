import EntityForge.Solidity.Layout

/-!
Instance values as literals. A list literal needs a function that builds its array; those functions
are numbered in the order in which their lists end, so an inner list comes before the list that
holds it, and they wait until the contract writes them.

A value that is left out is written as the zero value of its type. The zero value of a struct is
built from those of its members, along the embedded types; the types on the way are kept, which
bounds the depth by the number of types.
-/

namespace EntityForge.Solidity

/-- The array initialisers of a contract: how many there are, and those not yet written. -/
structure Arrays where
  count : Nat := 0
  pending : List ArrayInitialiser := []
deriving Repr, Inhabited

/-- Building literals: array initialisers are collected on the way. -/
abbrev Build := StateT Arrays (Except Error)

/-- Adds context to the error of a failed construction. -/
def Build.within {α : Type} (context : Context) (build : Build α) : Build α := fun arrays =>
  inContext context (build arrays)

/-- Adds an array initialiser and calls it. -/
def addArray (element : SolType) (items : List Literal) : Build Literal := do
  let arrays ← get
  let number := arrays.count + 1
  set ({ count := number, pending := arrays.pending ++ [⟨number, element, items⟩] } : Arrays)
  return .arrayCall number

/-- The array initialisers that wait, each after an empty line; none waits afterwards. -/
def writeArrays : Build Source := do
  let arrays ← get
  set { arrays with pending := [] }
  return arrays.pending.flatMap fun array => Source.blank :: array.source.flatLines

/-- Maps cannot be written as literals. -/
def mappingError : Error := { cause := .invalidSchema "mapping fields cannot be initialized from data" }

mutual

/-- The zero value of a declared type; `chain` holds the types whose zero values need it. -/
def zero (m : ResolvedModel) (chain : List EntityId) (type : FieldType) : Except Error Literal :=
  match type with
  | .scalar .int | .reference _ => .ok (.number 0)
  | .scalar .string => .ok (.text "")
  | .optional inner => zero m chain inner
  | .list element => do return .emptyArray (← solType m element)
  | .embedded target =>
    match storedById m target with
    | .error e => .error e
    | .ok true => .ok (.number 0)
    | .ok false => zeroStruct m chain target
  | .map _ _ => .error mappingError
termination_by (Walk.unvisited m.schema chain, sizeOf type)

/-- The struct of a type with every member zero. -/
def zeroStruct (m : ResolvedModel) (chain : List EntityId) (target : EntityId) :
    Except Error Literal :=
  match found : m.schema.get target with
  | .error e => .error e
  | .ok entity =>
    if onChain : target ∈ chain then fail (.cyclicDependency (Walk.cycle m.schema chain target))
    else do
      have := Walk.unvisited_lt (Walk.index_lt_of_get found) onChain
      let members ← entity.fields.mapM fun field => do
        return (memberName field.name, ← zero m (chain ++ [target]) field.type)
      let token := if entity.annotations.fungible then [("_token_id", Literal.number 0)] else []
      return .struct (← structName m target) (members ++ token)
termination_by (Walk.unvisited m.schema chain, 0)

end

/-- The members of a struct are written behind its type on the chain. -/
theorem zeroStruct_eq (m : ResolvedModel) (chain : List EntityId) (target : EntityId) :
    zeroStruct m chain target = do
      let entity ← m.schema.get target
      if target ∈ chain then fail (.cyclicDependency (Walk.cycle m.schema chain target))
      else do
        let members ← entity.fields.mapM fun field => do
          return (memberName field.name, ← zero m (chain ++ [target]) field.type)
        let token := if entity.annotations.fungible then [("_token_id", Literal.number 0)] else []
        return .struct (← structName m target) (members ++ token) := by
  rw [zeroStruct]
  split
  · rename_i e failed
    rw [failed]
    rfl
  · rename_i entity found
    simp only [found]
    rfl

/-- The struct of a declared type that is not on the chain has the zero values of its fields. -/
theorem zeroStruct_of_notMem {m : ResolvedModel} {chain : List EntityId} {target : EntityId}
    {entity : EntityType} (found : m.schema.get target = .ok entity) (fresh : target ∉ chain) :
    zeroStruct m chain target = do
      let members ← entity.fields.mapM fun field => do
        return (memberName field.name, ← zero m (chain ++ [target]) field.type)
      let token := if entity.annotations.fungible then [("_token_id", Literal.number 0)] else []
      return .struct (← structName m target) (members ++ token) := by
  rw [zeroStruct_eq, found]
  exact if_neg fresh

mutual

/-- The literal of a value of a declared type. -/
def literal (m : ResolvedModel) (type : FieldType) (value : Value) : Build Literal :=
  let mismatch : Build Literal :=
    throw { cause := .valueMismatch (m.schema.describe type.unwrap) value.kindName }
  match value with
  | .nil => zero m [] type
  | .int n =>
    match type.unwrap with
    | .scalar .int => return .number n
    | .map _ _ => throw mappingError
    | _ => mismatch
  | .string s =>
    match type.unwrap with
    | .scalar .string => return .text s
    | .map _ _ => throw mappingError
    | _ => mismatch
  | .ref r =>
    match type.unwrap with
    | .reference _ => do return .ordinal (← m.resolve r).ordinal
    | .map _ _ => throw mappingError
    | _ => mismatch
  | .list items =>
    match type.unwrap with
    | .list element => do
      let literals ← itemLiterals m element items
      addArray (← solType m element) literals
    | .map _ _ => throw mappingError
    | _ => mismatch
  | .record actual fields =>
    match type.unwrap with
    | .embedded _ => do
      let entity ← m.schema.get actual
      let members ← entity.fields.mapM fun field =>
        match _found : SortedMap.find? compare field.name fields with
        | none => do return (memberName field.name, ← zero m [] field.type)
        | some v => do return (memberName field.name, ← literal m field.type v)
      let token := if entity.annotations.fungible then [("_token_id", Literal.number 0)] else []
      return .struct (← structName m actual) (members ++ token)
    | .map _ _ => throw mappingError
    | _ => mismatch
  | .map _ =>
    match type.unwrap with
    | .map _ _ => throw mappingError
    | _ => mismatch
termination_by sizeOf value
decreasing_by
  all_goals simp_wf
  exact Nat.lt_of_lt_of_le (SortedMap.sizeOf_lt_of_find? _found) (by omega)

/-- The literals of the items of a list. -/
def itemLiterals (m : ResolvedModel) (element : FieldType) (items : List Value) :
    Build (List Literal) := do
  match items with
  | [] => return []
  | item :: rest =>
    let first ← literal m element item
    return first :: (← itemLiterals m element rest)
termination_by sizeOf items

end

theorem itemLiterals_eq_mapM (m : ResolvedModel) (element : FieldType) (items : List Value) :
    itemLiterals m element items = items.mapM (literal m element) := by
  induction items with
  | nil => rw [itemLiterals, List.mapM_nil]
  | cons item rest ih => rw [itemLiterals, List.mapM_cons, ih]

/-- The members of a record are the literals of what it sets, and of nil for everything else. -/
theorem literal_record {m : ResolvedModel} {type : FieldType} {target : EntityId}
    (fits : type.unwrap = .embedded target) (actual : EntityId) (fields : List (String × Value)) :
    literal m type (.record actual fields) = do
      let entity ← m.schema.get actual
      let members ← entity.fields.mapM fun field => do
        return (memberName field.name,
          ← literal m field.type ((SortedMap.find? compare field.name fields).getD .nil))
      let token := if entity.annotations.fungible then [("_token_id", Literal.number 0)] else []
      return .struct (← structName m actual) (members ++ token) := by
  rw [literal, fits]
  dsimp only
  congr
  funext entity
  congr
  funext field
  split
  · rename_i unset
    rw [unset, Option.getD_none, literal]
  · rename_i v set
    rw [set, Option.getD_some]

end EntityForge.Solidity
