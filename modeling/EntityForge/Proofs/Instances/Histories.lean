import EntityForge.Proofs.Instances.Contents

/-!
Histories of a schema and its instances. A call changes the schema, registers an instance or ends
the registration; failing calls belong to a history too.

The registry of instances keeps exactly the accepted registrations (`run_sound`), so what it shows
is read off their list: `instances_exact` puts the views together, with what a further call may do.
-/

namespace EntityForge

/-- A call on a schema or on its instances. -/
inductive Call where
  | schema (call : Registry.Call)
  | register (id : String) (record : Record)
  | close

/-- The call asks for a registration. -/
def Call.isRegistration : Call → Bool
  | register _ _ => true
  | _ => false

/-- A schema with its instances, and the accepted registrations in their order. -/
structure History where
  schema : Registry := {}
  instances : InstanceRegistry := {}
  accepted : List (String × Record) := []

namespace InstanceRegistry

/-- A later registry has every instance as it was, with its place, its id and its token number. -/
structure Extends (r r' : InstanceRegistry) : Prop where
  instance? : ∀ key i, r.instance? key = some i → r'.instance? key = some i
  ordinalOf? : ∀ type id n, r.ordinalOf? type id = some n → r'.ordinalOf? type id = some n
  tokenId? : ∀ key n, r.tokenId? key = some n → r'.tokenId? key = some n

/-- The reasons for which a registration is refused. -/
def Refuses (r : InstanceRegistry) (schema : Registry) (id : String) (record : Record) : Prop :=
  r.isSealed = true ∨ schema.entity? record.type = none ∨
    (∃ entity, schema.entity? record.type = some entity ∧
      (entity.isAbstract = true ∨ entity.isCatalog = true)) ∨
    ∃ n, r.ordinalOf? record.type id = some n

/-- All places of the instances agree with the accepted registrations and with each other. -/
structure Agrees (r : InstanceRegistry) (schema : Registry) (accepted : List (String × Record)) :
    Prop where
  instancesOf_eq : ∀ type, r.instancesOf type = (numbered accepted).filter (·.type == type)
  /-- The instance at a place of a bucket has this place as its ordinal and is of the type. -/
  ordinal_eq : ∀ type n (i : Instance), (r.instancesOf type)[n]? = some i →
    i.ordinal = n ∧ i.record.type = type
  ordinalOf?_iff : ∀ type id n, r.ordinalOf? type id = some n ↔
    ∃ i, (r.instancesOf type)[n]? = some i ∧ i.id = id
  nodup_ids : ∀ type, ((r.instancesOf type).map Instance.id).Nodup
  fungible_eq : r.fungible = keysMarked schema Annotations.fungible accepted
  nodup_fungible : r.fungible.Nodup
  tokenId?_iff : ∀ key n, r.tokenId? key = some n ↔ r.fungible[n]? = some key
  unique_eq : r.unique = keysMarked schema Annotations.nft accepted
  /-- All instances are counted, each under its type. -/
  size_eq : r.size = ∑ k ∈ Finset.range schema.size, (r.instancesOf ⟨k⟩).length

/-- What a registration may do to a registry. -/
structure RegistersAtomically (r : InstanceRegistry) (schema : Registry) : Prop where
  unchanged : ∀ id record e r',
    (Update.register schema id record).run r = .error e r' → r' = r
  refused_iff : ∀ id record, (∃ e r', (Update.register schema id record).run r = .error e r') ↔
    r.Refuses schema id record
  entered : ∀ id record key r', (Update.register schema id record).run r = .ok key r' →
    r'.instance? key = some { id, record, ordinal := (r.instancesOf record.type).length } ∧
      r.Extends r'

variable {r : InstanceRegistry} {schema : Registry} {accepted : List (String × Record)}
  {id : String} {record : Record} {entity : EntityType}

theorem Keeps.instance?_iff (keeps : r.Keeps schema accepted) {key : InstanceKey} {i : Instance} :
    r.instance? key = some i ↔ i ∈ numbered accepted ∧ i.key = key := by
  rw [instance?, keeps.instancesOf_eq, getElem?_filter_numbered]
  obtain ⟨type, ordinal⟩ := key
  simp only [Instance.key, InstanceKey.mk.injEq]

theorem Keeps.mem_instancesOf_iff (keeps : r.Keeps schema accepted) {type : EntityId}
    {i : Instance} :
    i ∈ r.instancesOf type ↔ r.instance? i.key = some i ∧ i.key.type = type := by
  rw [keeps.instancesOf_eq, List.mem_filter, beq_iff_eq, keeps.instance?_iff, Instance.key]
  simp

/-- The bucket of a type has the accepted ids and records of the type, in their order. -/
theorem Keeps.map_instancesOf (keeps : r.Keeps schema accepted) (type : EntityId) :
    (r.instancesOf type).map (fun i => (i.id, i.record)) =
      accepted.filter (·.2.type == type) := by
  have ofType := congrArg (List.filter (·.2.type == type)) (map_numbered accepted)
  rw [keeps.instancesOf_eq, ← ofType, List.filter_map]
  rfl

/-- What is entered does not disturb what is there. -/
theorem Keeps.extends_enter (keeps : r.Keeps schema accepted)
    (admits : r.Admits schema id record entity) :
    r.Extends (r.enter entity (r.next id record)) := by
  have after := keeps.enter admits
  refine ⟨?_, ?_, ?_⟩
  · intro key i found
    obtain ⟨kept, here⟩ := keeps.instance?_iff.mp found
    refine after.instance?_iff.mpr ⟨?_, here⟩
    rw [keeps.numbered_next]
    exact List.mem_append_left _ kept
  · intro type id' n found
    obtain ⟨i, kept, here⟩ := (keeps.ordinalOf?_iff type id' n).mp found
    refine (keeps.ordinalOf?_enter_iff admits.fresh type id' n).mpr ⟨i, ?_, here⟩
    exact List.mem_append_left _ kept
  · intro key n found
    obtain ⟨place, here, same⟩ := (keeps.tokenId?_iff key n).mp found
    refine (after.tokenId?_iff key n).mpr ⟨place, ?_, same⟩
    rw [fungible_enter]
    split
    · exact getElem?_concat_eq_some_iff.mpr (.inl here)
    · exact here

/-- A registration that finds room is refused for one of the reasons and for no other. -/
theorem register_refused_iff (room : (r.instancesOf record.type).length < capacity) :
    (∃ e r', (Update.register schema id record).run r = .error e r') ↔
      r.Refuses schema id record := by
  have refused : (∃ e r', (Update.register schema id record).run r = .error e r') ↔
      ¬ ∃ entity, r.Admits schema id record entity := by
    cases outcome : (Update.register schema id record).run r with
    | ok key r' =>
        obtain ⟨entity, admits, _⟩ := run_register_eq_ok_iff.mp outcome
        simp only [reduceCtorEq, exists_false, false_iff, not_not]
        exact ⟨entity, admits⟩
    | error e r' =>
        refine ⟨?_, fun _ => ⟨e, r', rfl⟩⟩
        rintro _ ⟨entity, admits⟩
        rw [run_register_eq_ok_iff.mpr ⟨entity, admits, rfl, rfl⟩] at outcome
        cases outcome
  rw [refused]
  constructor
  · intro none
    by_contra accepts
    unfold Refuses at accepts
    push Not at accepts
    obtain ⟨isOpen, known, kinds, fresh⟩ := accepts
    obtain ⟨entity, declared⟩ := Option.ne_none_iff_exists'.mp known
    obtain ⟨concrete, noCatalog⟩ := kinds entity declared
    exact none ⟨entity, Bool.eq_false_iff.mpr isOpen, declared, Bool.eq_false_iff.mpr concrete,
      Bool.eq_false_iff.mpr noCatalog, Option.eq_none_iff_forall_ne_some.mpr fresh, room⟩
  · rintro reason ⟨entity, admits⟩
    rcases reason with closed | unknown | ⟨entity', declared, kind⟩ | ⟨n, taken⟩
    · rw [admits.isOpen] at closed
      cases closed
    · rw [admits.declared] at unknown
      cases unknown
    · rw [admits.declared] at declared
      cases declared
      rcases kind with abstract | catalog
      · rw [admits.concrete] at abstract
        cases abstract
      · rw [admits.noCatalog] at catalog
        cases catalog
    · rw [admits.fresh] at taken
      cases taken

/-- A sealed registry takes nothing. -/
theorem register_of_sealed (closed : r.isSealed = true) (schema : Registry) (id : String)
    (record : Record) : ∃ e, (Update.register schema id record).run r = .error e r := by
  cases outcome : (Update.register schema id record).run r with
  | ok key r' =>
      obtain ⟨entity, admits, _⟩ := run_register_eq_ok_iff.mp outcome
      rw [admits.isOpen] at closed
      cases closed
  | error e r' => exact ⟨e, by rw [register_error_unchanged outcome]⟩

theorem Keeps.length_instancesOf_le (keeps : r.Keeps schema accepted) (type : EntityId) :
    (r.instancesOf type).length ≤ accepted.length := by
  rw [keeps.instancesOf_eq, ← length_numbered accepted]
  exact List.length_filter_le _ _

/-- Two instances of a type with one id are found at one place. -/
theorem Keeps.eq_of_id (keeps : r.Keeps schema accepted) {i j : Instance}
    (memI : i ∈ numbered accepted) (memJ : j ∈ numbered accepted) (sameType : i.type = j.type)
    (sameId : i.id = j.id) : i = j := by
  have first := (keeps.ordinalOf?_iff j.type j.id i.ordinal).mpr ⟨i, memI, sameType, sameId, rfl⟩
  have second := (keeps.ordinalOf?_iff j.type j.id j.ordinal).mpr ⟨j, memJ, rfl, rfl, rfl⟩
  have ordinal : i.ordinal = j.ordinal := Option.some.inj (first.symm.trans second)
  refine key_inj memI memJ ?_
  rw [Instance.key, Instance.key, sameType, ordinal]

theorem Keeps.nodup_ids (keeps : r.Keeps schema accepted) (type : EntityId) :
    ((r.instancesOf type).map Instance.id).Nodup := by
  rw [keeps.instancesOf_eq]
  refine (List.Nodup.of_map _ (nodup_map_key accepted)).filter _ |>.map_on ?_
  intro i memI j memJ same
  obtain ⟨keptI, typeI⟩ := List.mem_filter.mp memI
  obtain ⟨keptJ, typeJ⟩ := List.mem_filter.mp memJ
  exact keeps.eq_of_id keptI keptJ ((beq_iff_eq.mp typeI).trans (beq_iff_eq.mp typeJ).symm) same

/-- A list of marked keys has no repetitions and no more entries than there are instances. -/
theorem nodup_keysMarked (schema : Registry) (mark : Annotations → Bool)
    (accepted : List (String × Record)) : (keysMarked schema mark accepted).Nodup :=
  (nodup_map_key accepted).sublist (List.filter_sublist.map Instance.key)

theorem length_keysMarked_le (schema : Registry) (mark : Annotations → Bool)
    (accepted : List (String × Record)) :
    (keysMarked schema mark accepted).length ≤ accepted.length := by
  rw [keysMarked, List.length_map, ← length_numbered accepted]
  exact List.length_filter_le _ _

/-- With fewer instances than a word of 32 bits counts, token numbers are positions. -/
theorem Keeps.tokenId?_eq_some_iff (keeps : r.Keeps schema accepted)
    (few : accepted.length < capacity) (key : InstanceKey) (n : Nat) :
    r.tokenId? key = some n ↔ r.fungible[n]? = some key := by
  have exact : ∀ place, r.fungible[place]? = some key → place % capacity = place := by
    intro place here
    have inside := (List.getElem?_eq_some_iff.mp here).1
    rw [keeps.fungible_eq] at inside
    have bound := length_keysMarked_le schema Annotations.fungible accepted
    exact Nat.mod_eq_of_lt (by omega)
  rw [keeps.tokenId?_iff]
  constructor
  · rintro ⟨place, here, rfl⟩
    rw [exact place here]
    exact here
  · intro here
    exact ⟨n, here, (exact n here).symm⟩

/-- Every instance is counted under its type, which is a known one. -/
theorem Keeps.size_eq_sum (keeps : r.Keeps schema accepted) :
    r.size = ∑ k ∈ Finset.range schema.size, (r.instancesOf ⟨k⟩).length := by
  have known : ∀ i ∈ numbered accepted, i.type.index < schema.size := by
    intro i mem
    obtain ⟨entity, found, _⟩ := keeps.declared i mem
    exact Registry.index_lt_of_entity? found
  rw [keeps.size_eq, ← length_numbered accepted, ← sum_length_filter known]
  refine Finset.sum_congr rfl fun k _ => ?_
  rw [keeps.instancesOf_eq]
  refine congrArg List.length (List.filter_congr fun i _ => ?_)
  rw [Bool.eq_iff_iff, beq_iff_eq, beq_iff_eq, EntityId.ext_iff]

theorem Keeps.agrees (keeps : r.Keeps schema accepted) (few : accepted.length < capacity) :
    r.Agrees schema accepted where
  instancesOf_eq := keeps.instancesOf_eq
  ordinal_eq type n i here := by
    rw [keeps.instancesOf_eq, getElem?_filter_numbered] at here
    exact ⟨here.2.2, here.2.1⟩
  ordinalOf?_iff type id n := by
    rw [keeps.ordinalOf?_iff, keeps.instancesOf_eq]
    simp only [getElem?_filter_numbered]
    constructor
    · rintro ⟨i, mem, sameType, sameId, place⟩
      exact ⟨i, ⟨mem, sameType, place⟩, sameId⟩
    · rintro ⟨i, ⟨mem, sameType, place⟩, sameId⟩
      exact ⟨i, mem, sameType, sameId, place⟩
  nodup_ids := keeps.nodup_ids
  fungible_eq := keeps.fungible_eq
  nodup_fungible := keeps.fungible_eq ▸ nodup_keysMarked schema Annotations.fungible accepted
  tokenId?_iff := keeps.tokenId?_eq_some_iff few
  unique_eq := keeps.unique_eq
  size_eq := keeps.size_eq_sum

theorem Keeps.registersAtomically (keeps : r.Keeps schema accepted)
    (few : accepted.length < capacity) : r.RegistersAtomically schema where
  unchanged _ _ _ _ failed := register_error_unchanged failed
  refused_iff _ record :=
    register_refused_iff (Nat.lt_of_le_of_lt (keeps.length_instancesOf_le record.type) few)
  entered id record key r' done := by
    obtain ⟨entity, admits, rfl, rfl⟩ := run_register_eq_ok_iff.mp done
    refine ⟨(keeps.enter admits).instance?_iff.mpr ⟨?_, rfl⟩, keeps.extends_enter admits⟩
    rw [keeps.numbered_next]
    exact List.mem_append_right _ (List.mem_singleton.mpr rfl)

end InstanceRegistry

namespace History

open InstanceRegistry

/-- What a call leaves behind, whether it succeeds or fails. -/
def after (h : History) : Call → History
  | .schema call => { h with schema := h.schema.after call }
  | .register id record =>
    match (Update.register h.schema id record).run h.instances with
    | .ok _ instances => { h with instances, accepted := h.accepted ++ [(id, record)] }
    | .error _ instances => { h with instances }
  | .close => { h with instances := h.instances.close }

/-- The history of a sequence of calls on an empty schema without instances. -/
def run (calls : List Call) : History := calls.foldl after {}

theorem run_concat (calls : List Call) (call : Call) :
    run (calls ++ [call]) = (run calls).after call := by
  rw [run, List.foldl_append]
  rfl

/-- What every history keeps: the schema is reachable, and the instances are the accepted ones. -/
structure Sound (h : History) : Prop where
  reachable : h.schema.Reachable
  keeps : h.instances.Keeps h.schema h.accepted

theorem Sound.after {h : History} (sound : h.Sound) (call : Call) : (h.after call).Sound := by
  cases call with
  | schema call =>
      obtain ⟨calls, reached⟩ := sound.reachable
      refine ⟨⟨calls ++ [call], ?_⟩, sound.keeps.extend (sound.reachable.extends_after call)⟩
      rw [Registry.run, List.foldl_append, ← Registry.run, reached]
      rfl
  | register id record =>
      unfold History.after
      dsimp only
      split
      · rename_i key instances done
        obtain ⟨entity, admits, _, rfl⟩ := run_register_eq_ok_iff.mp done
        exact ⟨sound.reachable, sound.keeps.enter admits⟩
      · rename_i e instances failed
        rw [register_error_unchanged failed]
        exact sound
  | close => exact ⟨sound.reachable, sound.keeps.close⟩

/-- **A registry keeps exactly the accepted registrations.** -/
theorem run_sound (calls : List Call) : (run calls).Sound := by
  induction calls using List.reverseRecOn with
  | nil => exact ⟨⟨[], rfl⟩, keeps_empty⟩
  | append_singleton calls call ih =>
      rw [run_concat]
      exact ih.after call

/-- No more registrations are accepted than asked for. -/
theorem length_accepted_le (calls : List Call) :
    (run calls).accepted.length ≤ calls.countP Call.isRegistration := by
  induction calls using List.reverseRecOn with
  | nil => exact Nat.le_refl 0
  | append_singleton calls call ih =>
      rw [run_concat, List.countP_append, List.countP_singleton]
      cases call with
      | schema call => exact ih
      | register id record =>
          unfold after
          dsimp only
          split
          · rw [List.length_append]
            exact Nat.add_le_add_right ih 1
          · exact Nat.le_add_right_of_le ih
      | close => exact ih

/-- After the registration has ended, no call changes the instances. -/
theorem instances_foldl_after_of_sealed {h : History} (closed : h.instances.isSealed = true)
    (more : List Call) : (more.foldl after h).instances = h.instances := by
  induction more generalizing h with
  | nil => rfl
  | cons call rest ih =>
      have unchanged : (h.after call).instances = h.instances := by
        cases call with
        | schema call => rfl
        | register id record =>
            obtain ⟨e, refused⟩ := register_of_sealed closed h.schema id record
            simp only [after, refused]
        | close =>
            unfold after close
            dsimp only
            rw [← closed]
      rw [List.foldl_cons, ih (unchanged ▸ closed), unchanged]

/-- **The places of the instances agree, and registrations are atomic.** After any history with
fewer registrations than a word of 32 bits counts, buckets, index, lists and token numbers show the
accepted registrations; a further registration is refused for a stated reason and changes nothing, or
adds its instance and leaves the others as they are; and a sealed registry stays as it is. -/
theorem instances_exact (calls : List Call) {h : History} (reached : run calls = h)
    (few : calls.countP Call.isRegistration < capacity) :
    h.instances.Agrees h.schema h.accepted ∧ h.instances.RegistersAtomically h.schema ∧
      (h.instances.isSealed = true →
        ∀ more : List Call, (more.foldl after h).instances = h.instances) := by
  subst reached
  have keeps := (run_sound calls).keeps
  have few : (run calls).accepted.length < capacity :=
    Nat.lt_of_le_of_lt (length_accepted_le calls) few
  exact ⟨keeps.agrees few, keeps.registersAtomically few, instances_foldl_after_of_sealed⟩

/-- Two currencies around a hero, one of them a repetition that is refused. -/
def coins : List Call := [
  .schema (.declare { name := "CurrencyData", annotations := { tokenized := true } }),
  .register "gold" { type := ⟨0⟩ },
  .schema (.declare { name := "HeroModel", annotations := { nft := true } }),
  .register "knight" { type := ⟨1⟩ },
  .register "gold" { type := ⟨0⟩ },
  .register "gems" { type := ⟨0⟩ },
  .close]

theorem instances_exact_coins :
    (run coins).instances.tokenId? ⟨⟨0⟩, 1⟩ = some 1 ∧ (run coins).instances.unique = [⟨⟨1⟩, 0⟩] ∧
      (run coins).instances.size = 3 ∧
      ((run coins).after (.register "silver" { type := ⟨0⟩ })).instances =
        (run coins).instances := by
  obtain ⟨agrees, _, closed⟩ := instances_exact coins rfl (by decide)
  refine ⟨(agrees.tokenId?_iff _ _).mpr ?_, ?_, ?_, ?_⟩
  · decide +kernel
  · rw [agrees.unique_eq]
    decide +kernel
  · rw [agrees.size_eq]
    decide +kernel
  · exact closed (by decide +kernel) [.register "silver" { type := ⟨0⟩ }]

end History

end EntityForge
