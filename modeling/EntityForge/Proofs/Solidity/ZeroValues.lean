import EntityForge.Proofs.Solidity.Arrays
import EntityForge.Proofs.Solidity.Literals

/-!
Zero values without a chain. A value that is left out has the zero value of its type, and that of a
struct is written as a record that sets nothing, which asks for the zero values of its fields in turn.
Nothing gets smaller on the way, and no chain of types is needed for it to end: `step` is this recursion
with everything that it asks for left open, and `Calls` is what it asks for. From the zero value of one
type it only comes to types that the first one embeds in turn, never to the first one again, so every
demand ends, and the only answers that solve the recursion are the literals (`zero_values_end`).
-/

namespace EntityForge.Solidity

variable {m : ResolvedModel}

/-! ### The recursion -/

/-- What is asked for on the way to a literal: the literal of a value, the zero value of a type, or the
struct of a record. -/
inductive Demand where
  | value (type : FieldType) (value : Value)
  | zero (type : FieldType)
  | record (actual : EntityId) (fields : List (String × Value))

/-- One step towards a literal; `ask` is asked for the rest. -/
def step (m : ResolvedModel) (ask : Demand → Build Literal) : Demand → Build Literal
  | .value type .nil => ask (.zero type)
  | .value (.optional inner) v => ask (.value inner v)
  | .value (.scalar .int) (.int n) => return .number n
  | .value (.scalar .string) (.string s) => return .text s
  | .value (.reference _) (.ref r) => do return .ordinal (← m.resolve r).ordinal
  | .value (.list element) (.list items) => do
    let literals ← items.mapM fun item => ask (.value element item)
    addArray (← solType m element) literals
  | .value (.embedded _) (.record actual fields) => ask (.record actual fields)
  | .value (.map _ _) _ => throw mappingError
  | .value type v => throw { cause := .valueMismatch (m.schema.describe type) v.kindName }
  | .zero (.scalar .int) | .zero (.reference _) => return .number 0
  | .zero (.scalar .string) => return .text ""
  | .zero (.optional inner) => ask (.zero inner)
  | .zero (.list element) => do return .emptyArray (← solType m element)
  | .zero (.embedded target) => do
    if ← storedById m target then return .number 0
    ask (.record target [])
  | .zero (.map _ _) => throw mappingError
  | .record actual fields => do
    let entity ← m.schema.get actual
    let members ← entity.fields.mapM fun field => do
      return (memberName field.name,
        ← ask (.value field.type ((SortedMap.find? compare field.name fields).getD .nil)))
    let token := if entity.annotations.fungible then [("_token_id", Literal.number 0)] else []
    return .struct (← structName m actual) (members ++ token)

/-- What a step asks for. -/
inductive Calls (m : ResolvedModel) : Demand → Demand → Prop where
  | nil (type : FieldType) : Calls m (.value type .nil) (.zero type)
  | optional (inner : FieldType) {v : Value} : v ≠ .nil →
      Calls m (.value (.optional inner) v) (.value inner v)
  | item (element : FieldType) {items : List Value} {item : Value} : item ∈ items →
      Calls m (.value (.list element) (.list items)) (.value element item)
  | embedded (target actual : EntityId) (fields : List (String × Value)) :
      Calls m (.value (.embedded target) (.record actual fields)) (.record actual fields)
  | inner (inner : FieldType) : Calls m (.zero (.optional inner)) (.zero inner)
  | missing {target : EntityId} : storedById m target = .ok false →
      Calls m (.zero (.embedded target)) (.record target [])
  | field {actual : EntityId} (fields : List (String × Value)) {entity : EntityType} {field : Field} :
      m.schema.entity? actual = some entity → field ∈ entity.fields →
      Calls m (.record actual fields)
        (.value field.type ((SortedMap.find? compare field.name fields).getD .nil))

/-- What is written for a demand. -/
def answer (m : ResolvedModel) : Demand → Build Literal
  | .value type v => literal m type v
  | .zero type => zero m [] type
  | .record actual fields => literal m (.embedded actual) (.record actual fields)

/-- A step only depends on what it asks for. -/
theorem step_congr {ask ask' : Demand → Build Literal} {d : Demand}
    (same : ∀ d', Calls m d d' → ask d' = ask' d') : step m ask d = step m ask' d := by
  fun_cases step m ask d with
  | case1 type =>
      rw [step]
      exact same _ (.nil type)
  | case2 inner v set =>
      rw [step]
      · exact same _ (.optional inner set)
      · exact set
  | case6 element items =>
      rw [step, mapM_congr fun item mem => same _ (.item element mem)]
  | case7 target actual fields =>
      rw [step]
      exact same _ (.embedded target actual fields)
  | case13 inner =>
      rw [step]
      exact same _ (.inner inner)
  | case15 target =>
      rw [step]
      refine lift_bind_congr fun byId found => ?_
      cases byId with
      | true => rfl
      | false => exact same _ (.missing found)
  | case17 actual fields =>
      rw [step]
      refine lift_bind_congr fun entity got => ?_
      have declared := Registry.get_eq_ok_iff.mp got
      rw [mapM_congr fun field mem => by rw [same _ (.field fields declared mem)]]
  | _ =>
      rw [step]
      all_goals assumption

/-! ### Chains -/

section

variable (verified : m.Verified)

include verified

/-- **The chain of a zero value decides nothing**: as long as everything on it embeds what the type
stores, another one gives the same. -/
theorem zero_eq_of_leadsTo (chain : List EntityId) (type : FieldType) :
    (∀ target, type.Stores true target → LeadsTo m chain target) →
    ∀ other, (∀ target, type.Stores true target → LeadsTo m other target) →
      zero m chain type = zero m other type := by
  refine zero.induct m
    (fun chain type => (∀ target, type.Stores true target → LeadsTo m chain target) →
      ∀ other, (∀ target, type.Stores true target → LeadsTo m other target) →
        zero m chain type = zero m other type)
    (fun chain target => LeadsTo m chain target → ∀ other, LeadsTo m other target →
      zeroStruct m chain target = zeroStruct m other target)
    ?int ?reference ?string ?optional ?list ?unknown ?byId ?struct ?map ?undeclared ?cycle ?members
    chain type
  case int =>
    intro chain _ other _
    rw [zero, zero]
  case reference =>
    intro chain target _ other _
    rw [zero, zero]
  case string =>
    intro chain _ other _
    rw [zero, zero]
  case optional =>
    intro chain inner ih leads other leads'
    rw [zero, zero]
    exact ih (fun target stores => leads target (.optional stores)) other fun target stores =>
      leads' target (.optional stores)
  case list =>
    intro chain element _ other _
    rw [zero, zero]
  case unknown =>
    intro chain target e failed _ other _
    rw [zero, zero, failed]
  case byId =>
    intro chain target byId _ other _
    rw [zero, zero, byId]
  case struct =>
    intro chain target inPlace ih leads other leads'
    rw [zero, zero, inPlace]
    exact ih (leads target (.embedded target)) other (leads' target (.embedded target))
  case map =>
    intro chain key value _ other _
    rw [zero, zero]
  case undeclared =>
    intro chain target e failed _ other _
    rw [zeroStruct_eq, zeroStruct_eq, failed]
    rfl
  case cycle =>
    intro chain target entity found onChain leads
    exact absurd (leads target onChain)
      (verified.not_transGen_self ⟨entity, Registry.get_eq_ok_iff.mp found⟩)
  case members =>
    intro chain target entity found fresh _ ih leads other leads'
    have declared := Registry.get_eq_ok_iff.mp found
    have fresh' : target ∉ other := fun onChain =>
      verified.not_transGen_self ⟨entity, declared⟩ (leads' target onChain)
    have members : ∀ field ∈ entity.fields,
        zero m (chain ++ [target]) field.type = zero m (other ++ [target]) field.type :=
      fun field mem => ih field
        (fun t stores => leads.concat ⟨entity, declared, field, mem, stores⟩) _
        fun t stores => leads'.concat ⟨entity, declared, field, mem, stores⟩
    rw [zeroStruct_of_notMem found fresh, zeroStruct_of_notMem found fresh',
      mapM_congr fun field mem => by rw [members field mem]]

/-- The zero value of a struct is the literal of a record that sets nothing. -/
theorem zero_struct_eq {target : EntityId} (inPlace : storedById m target = .ok false) :
    (zero m [] (.embedded target) : Build Literal) =
      literal m (.embedded target) (.record target []) := by
  rw [zero, inPlace, literal_record rfl]
  dsimp only
  cases found : m.schema.get target with
  | error e =>
      rw [zeroStruct_eq, found]
      rfl
  | ok entity =>
      have declared := Registry.get_eq_ok_iff.mp found
      have members : ∀ field ∈ entity.fields,
          (liftM (do return (memberName field.name, ← zero m ([] ++ [target]) field.type)) :
            Build (String × Literal)) = do
              return (memberName field.name,
                ← literal m field.type ((SortedMap.find? compare field.name []).getD .nil)) := by
        intro field mem
        have embeds : ∀ t, field.type.Stores true t → LeadsTo m ([] ++ [target]) t := by
          intro t stores other mem
          obtain rfl := List.mem_singleton.mp mem
          exact .single ⟨entity, declared, field, ‹_›, stores⟩
        have same := zero_eq_of_leadsTo verified _ field.type embeds []
          fun _ _ _ mem => (List.not_mem_nil mem).elim
        have unset : (SortedMap.find? compare field.name ([] : List (String × Value))).getD .nil =
            .nil := rfl
        rw [same, unset, literal, liftM_bind]
        rfl
      rw [zeroStruct_of_notMem found List.not_mem_nil, liftM_bind, lift_mapM, mapM_congr members]
      simp only [liftM_bind, liftM_pure]
      rfl

/-! ### Answers -/

omit verified in
/-- A value that is set is written as one of the inner type. -/
theorem literal_optional (inner : FieldType) {v : Value} (set : v ≠ .nil) :
    literal m (.optional inner) v = literal m inner v := by
  cases v with
  | nil => exact absurd rfl set
  | int _ | string _ | ref _ | list _ | map _ | record _ _ =>
      rw [literal, literal]
      rfl

/-- The literals solve the recursion. -/
theorem step_answer : step m (answer m) = answer m := by
  funext d
  fun_cases step m (answer m) d with
  | case1 type => rw [answer, answer, literal]
  | case2 inner v set => exact (literal_optional inner set).symm
  | case3 n | case4 text =>
      rw [answer, literal]
      rfl
  | case5 target r =>
      rw [answer, literal]
      rfl
  | case6 element items =>
      rw [answer, literal]
      dsimp only [FieldType.unwrap]
      rw [itemLiterals_eq_mapM]
      rfl
  | case7 target actual fields =>
      rw [answer, answer, literal_record rfl, literal_record rfl]
  | case8 key inner v set =>
      rw [answer]
      cases v with
      | nil => exact (set rfl).elim
      | int _ | string _ | ref _ | list _ | map _ | record _ _ =>
          rw [literal]
          rfl
  | case9 type v unset plain int text ref list record unmapped =>
      rw [answer]
      cases v with
      | nil => exact (unset rfl).elim
      | int _ | string _ | ref _ | list _ | map _ | record _ _ =>
          rw [literal]
          cases type with
          | optional inner => exact (plain inner rfl).elim
          | map key inner => exact (unmapped key inner rfl).elim
          | scalar kind =>
              cases kind <;>
                first | rfl | exact (int _ rfl rfl).elim | exact (text _ rfl rfl).elim
          | reference target => first | rfl | exact (ref _ _ rfl rfl).elim
          | list element => first | rfl | exact (list _ _ rfl rfl).elim
          | embedded target => first | rfl | exact (record _ _ _ rfl rfl).elim
  | case10 | case11 | case12 =>
      rw [answer, zero]
      rfl
  | case13 inner => rw [answer, answer, zero]
  | case14 element =>
      rw [answer, zero]
      rw [liftM_bind]
      rfl
  | case15 target =>
      rw [answer]
      cases byId : storedById m target with
      | error e =>
          rw [zero, byId]
          rfl
      | ok found =>
          cases found with
          | true =>
              rw [zero, byId]
              rfl
          | false =>
              rw [zero_struct_eq verified byId]
              rfl
  | case16 key inner =>
      rw [answer, zero]
      rfl
  | case17 actual fields =>
      rw [answer, literal_record rfl]
      rfl

/-! ### The end of the recursion -/

/-- The demand ends: every way of asking on from it is finite. -/
def Ends (m : ResolvedModel) (d : Demand) : Prop := Acc (flip (Calls m)) d

omit verified in
theorem ends_nil {type : FieldType} (ends : Ends m (.zero type)) : Ends m (.value type .nil) := by
  refine .intro _ fun d calls => ?_
  cases calls with
  | nil => exact ends
  | optional inner set => exact (set rfl).elim

/-- **Zero values end.** The induction is that of `zero`, whose chain leads to everything that is asked
for, and which never finds a type on it. -/
theorem ends_zero (type : FieldType) : Ends m (.zero type) := by
  refine zero.induct m
    (fun chain type => (∀ target, type.Stores true target → LeadsTo m chain target) →
      Ends m (.zero type))
    (fun chain target => LeadsTo m chain target → Ends m (.record target []))
    ?int ?reference ?string ?optional ?list ?unknown ?byId ?struct ?map ?undeclared ?cycle ?members
    [] type fun _ _ _ mem => (List.not_mem_nil mem).elim
  case optional =>
    intro chain inner ih leads
    refine .intro _ fun d calls => ?_
    cases calls
    exact ih fun target stores => leads target (.optional stores)
  case struct =>
    intro chain target inPlace ih leads
    refine .intro _ fun d calls => ?_
    cases calls
    exact ih (leads target (.embedded target))
  case unknown =>
    intro chain target e failed _
    refine .intro _ fun d calls => ?_
    cases calls with
    | missing inPlace => cases failed.symm.trans inPlace
  case byId =>
    intro chain target byId _
    refine .intro _ fun d calls => ?_
    cases calls with
    | missing inPlace => cases byId.symm.trans inPlace
  case undeclared =>
    intro chain target e failed _
    refine .intro _ fun d calls => ?_
    cases calls with
    | field _ declared => cases failed.symm.trans (Registry.get_eq_ok_iff.mpr declared)
  case cycle =>
    intro chain target entity found onChain leads
    exact absurd (leads target onChain)
      (verified.not_transGen_self ⟨entity, Registry.get_eq_ok_iff.mp found⟩)
  case members =>
    intro chain target entity found fresh _ ih leads
    refine .intro _ fun d calls => ?_
    cases calls with
    | @field _ _ entity' field declared mem =>
        exact ends_nil (ih field fun t stores => leads.concat ⟨entity', declared, field, mem, stores⟩)
  all_goals
    intros
    refine .intro _ fun d calls => ?_
    cases calls

/-- Values end: what they hold is smaller, and what they leave out is zero. -/
theorem ends_value (type : FieldType) (value : Value) : Ends m (.value type value) := by
  cases value with
  | nil => exact ends_nil (ends_zero verified type)
  | int _ | string _ | ref _ | map _ =>
      refine .intro _ fun d calls => ?_
      cases calls
      exact ends_value _ _
  | list items =>
      refine .intro _ fun d calls => ?_
      cases calls with
      | optional inner => exact ends_value inner _
      | item element mem => exact ends_value element _
  | record actual fields =>
      refine .intro _ fun d calls => ?_
      cases calls with
      | optional inner => exact ends_value inner _
      | embedded =>
          refine .intro _ fun d calls => ?_
          cases calls with
          | @field _ _ entity field declared mem =>
              have smaller := sizeOf_getD_lt field.name actual fields
              exact ends_value field.type _
termination_by (sizeOf value, sizeOf type)

/-- Everything that is asked for ends, since a record ends with its fields. -/
theorem wellFounded_calls : WellFounded (flip (Calls m)) := by
  refine ⟨fun d => ?_⟩
  cases d with
  | value type value => exact ends_value verified type value
  | zero type => exact ends_zero verified type
  | record actual fields =>
      refine .intro _ fun d calls => ?_
      cases calls
      exact ends_value verified _ _

/-- Only the literals solve the recursion. -/
theorem eq_answer {ask : Demand → Build Literal} (solves : step m ask = ask) : ask = answer m := by
  funext d
  induction d using (wellFounded_calls verified).induction with
  | _ d ih =>
      calc ask d = step m ask d := by rw [solves]
        _ = step m (answer m) d := step_congr ih
        _ = answer m d := by rw [step_answer verified]

/-! ### Chains of missing fields -/

omit verified in
/-- What is asked for on the way from the zero value of a type: nothing is set, and all that is stored
is embedded in turn. -/
def Missing (m : ResolvedModel) (start : EntityId) : Demand → Prop
  | .value type v => v = .nil ∧
      ∀ t, type.Stores true t → Relation.TransGen m.schema.Embeds start t
  | .zero type => ∀ t, type.Stores true t → Relation.TransGen m.schema.Embeds start t
  | .record actual fields => fields = [] ∧ Relation.ReflTransGen m.schema.Embeds start actual

omit verified in
theorem missing_of_calls {start : EntityId} {d d' : Demand} (missing : Missing m start d)
    (calls : Calls m d d') : Missing m start d' := by
  cases calls with
  | nil type => exact missing.2
  | optional inner set => exact (set missing.1).elim
  | item element mem => cases missing.1
  | embedded target actual fields => cases missing.1
  | inner inner => exact fun t stores => missing t (.optional stores)
  | @missing target inPlace => exact ⟨rfl, (missing target (.embedded target)).to_reflTransGen⟩
  | @field actual fields entity field declared mem =>
      obtain ⟨rfl, reached⟩ := missing
      exact ⟨rfl, fun t stores => .tail' reached ⟨entity, declared, field, mem, stores⟩⟩

omit verified in
theorem missing_of_transGen {start : EntityId} {d : Demand}
    (chain : Relation.TransGen (Calls m) (.zero (.embedded start)) d) : Missing m start d := by
  induction chain with
  | single calls =>
      cases calls
      exact ⟨rfl, .refl⟩
  | tail _ calls missing => exact missing_of_calls missing calls

/-- **No type is revisited on a chain of missing fields.** -/
theorem embeds_of_transGen {start target : EntityId}
    (chain : Relation.TransGen (Calls m) (.zero (.embedded start)) (.zero (.embedded target))) :
    Relation.TransGen m.schema.Embeds start target ∧ start ≠ target := by
  have embeds : Relation.TransGen m.schema.Embeds start target :=
    missing_of_transGen chain target (.embedded target)
  obtain ⟨_, ⟨entity, declared, _⟩, _⟩ := Relation.TransGen.head'_iff.mp embeds
  refine ⟨embeds, ?_⟩
  rintro rfl
  exact verified.not_transGen_self ⟨entity, declared⟩ embeds

end

/-! ### Models -/

/-- The recursion of zero values ends without a chain. -/
structure EndsWithoutChain (m : ResolvedModel) : Prop where
  /-- No way of asking goes on for ever. -/
  ends : WellFounded (flip (Calls m))
  /-- On a chain of missing fields each type embeds the later ones, and none comes twice. -/
  chains : ∀ start target,
    Relation.TransGen (Calls m) (.zero (.embedded start)) (.zero (.embedded target)) →
      Relation.TransGen m.schema.Embeds start target ∧ start ≠ target
  /-- The literals, and nothing else, are what the recursion gives. -/
  solved : ∀ ask, step m ask = ask ↔ ask = answer m
  /-- A zero value is written unless it needs a map. -/
  written : ∀ type : FieldType, type.Grounded m.schema → FailsOnly (· = mappingError) (zero m [] type)

/-- **Zero values end.** In every model that is built, writing a value, a zero value or a record ends,
although a zero value starts again with a record that sets nothing: each type on a chain of missing
fields embeds the next, and no declared type, abstract or not, embeds itself in turn. -/
theorem zero_values_end {schema : Registry} {instances : InstanceRegistry}
    (reachable : schema.Reachable) (filled : instances.Filled)
    (built : ResolvedModel.build schema instances = .ok m) : EndsWithoutChain m := by
  have verified := ResolvedModel.verified_of_build reachable.consistent filled built
  exact {
    ends := wellFounded_calls verified
    chains := fun _ _ chain => embeds_of_transGen verified chain
    solved := fun ask => ⟨eq_answer verified, fun same => same ▸ step_answer verified⟩
    written := fun _ grounded => failsOnly_zero_nil verified rfl grounded }

/-- A struct that stands for its abstract parent, and embeds structs by itself and through the parent. -/
def bows : List Call := [
  .schema (.declare { name := "Range", fields := [{ name := "far", type := .scalar .int }] }),
  .schema (.declare {
    name := "Weapon", fields := [{ name := "range", type := .optional (.embedded ⟨0⟩) }]
    annotations := { isAbstract := true } }),
  .schema (.declare {
    name := "Quiver", fields := [{ name := "arrows", type := .list (.embedded ⟨0⟩) }] }),
  .schema (.declare {
    name := "Bow", parent := some ⟨1⟩, fields := [{ name := "quiver", type := .embedded ⟨2⟩ }] }),
  .schema (.declare {
    name := "ArcherData", fields := [{ name := "weapon", type := .embedded ⟨1⟩ }]
    root := some .dataCatalog }),
  .close]

theorem zero_values_end_bows : ∃ m,
    ResolvedModel.build (History.run bows).schema (History.run bows).instances = .ok m ∧
      Relation.TransGen (Calls m) (.zero (.embedded ⟨3⟩)) (.zero (.embedded ⟨0⟩)) ∧
      EndsWithoutChain m := by
  have builds : (ResolvedModel.build (History.run bows).schema
      (History.run bows).instances).isOk = true := by
    decide +kernel
  cases built : ResolvedModel.build (History.run bows).schema (History.run bows).instances with
  | error e =>
      rw [built] at builds
      cases builds
  | ok m =>
      obtain ⟨sameSchema, _⟩ := ResolvedModel.of_build built
      have inPlace : storedById m ⟨3⟩ = .ok false := by
        rw [storedById, sameSchema]
        rfl
      have bow : ∃ entity, (History.run bows).schema.entity? ⟨3⟩ = some entity ∧
          ({ name := "range", type := .optional (.embedded ⟨0⟩) } : Field) ∈ entity.fields :=
        ⟨_, rfl, by decide⟩
      obtain ⟨entity, declared, inherited⟩ := bow
      rw [← sameSchema] at declared
      exact ⟨m, rfl,
        .tail (.tail (.tail (.single (.missing inPlace)) (.field [] declared inherited)) (.nil _))
          (.inner _),
        zero_values_end (History.run_sound bows).reachable (History.filled_run bows) built⟩

end EntityForge.Solidity
