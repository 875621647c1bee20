import EntityForge.Proofs.Instances.Filled
import EntityForge.Proofs.Instances.References
import EntityForge.Proofs.Text.Separators

/-!
References as addresses of instances. A payload is read exactly if it is the written form of a tag and
an id that can be told apart in it (`Reference.parse_eq_ok_iff`). Tags have no slash, so the payload of
an instance is read back unless its tag is empty or its id is empty or has a slash; and since tags tell
types apart and ids the instances of a type, what is read leads to the instance and to no other.
-/

namespace EntityForge

namespace Reference

variable {payload : String} {r : Reference}

/-- Tag and id can be told apart in the written form. -/
structure Writable (r : Reference) : Prop where
  tag_ne : r.tag ≠ ""
  id_ne : r.id ≠ ""
  notMem_tag : separator ∉ r.tag.toList
  notMem_id : separator ∉ r.id.toList

theorem toList_display (r : Reference) :
    r.display.toList = r.tag.toList ++ separator :: r.id.toList := by
  simp [display, Char.toString]

/-- A written form is cut after its tag, so it is read back unless something is missing or the id has a
separator of its own. -/
theorem parse_display (clear : separator ∉ r.tag.toList) :
    parse r.display =
      if r.tag ≠ "" ∧ r.id ≠ "" ∧ separator ∉ r.id.toList then .ok r
      else fail (.malformedReference r.display) := by
  have before : ∀ c ∈ r.tag.toList, (c != separator) = true :=
    fun c mem => bne_iff_ne.mpr fun same => clear (same ▸ mem)
  have tag : r.display.toList.takeWhile (· != separator) = r.tag.toList := by
    rw [toList_display, List.takeWhile_append_of_pos before, List.takeWhile_cons_of_neg (by simp),
      List.append_nil]
  have rest : r.display.toList.dropWhile (· != separator) = separator :: r.id.toList := by
    rw [toList_display, List.dropWhile_append_of_pos before, List.dropWhile_cons_of_neg (by simp)]
  unfold parse
  simp only [tag, rest, ne_eq, String.toList_eq_nil_iff, String.ofList_toList]

theorem writable_of_parse (read : parse payload = .ok r) : payload = r.display ∧ r.Writable := by
  have split := List.takeWhile_append_dropWhile (p := (· != separator)) (l := payload.toList)
  unfold parse at read
  dsimp only at read
  split at read
  · rename_i c id found
    split at read
    · rename_i separate
      cases read
      have first : c = separator := by
        have stop := List.head_dropWhile_not (· != separator) (l := payload.toList)
          (by rw [found]; exact List.cons_ne_nil c id)
        simpa [found] using stop
      rw [first] at found
      refine ⟨String.toList_inj.mp ?_, ?_, ?_, ?_, ?_⟩
      · rw [toList_display, String.toList_ofList, String.toList_ofList, ← found, split]
      · exact fun empty => separate.1 (by simpa using congrArg String.toList empty)
      · exact fun empty => separate.2.1 (by simpa using congrArg String.toList empty)
      · rw [String.toList_ofList]
        intro mem
        have before := List.all_eq_true.mp List.all_takeWhile separator mem
        simp at before
      · rw [String.toList_ofList]
        exact separate.2.2
    · cases read
  · cases read

/-- **A payload is read exactly if it is the written form of a tag and an id that can be told apart.** -/
theorem parse_eq_ok_iff : parse payload = .ok r ↔ payload = r.display ∧ r.Writable := by
  refine ⟨writable_of_parse, ?_⟩
  rintro ⟨rfl, writable⟩
  rw [parse_display writable.notMem_tag,
    if_pos ⟨writable.tag_ne, writable.id_ne, writable.notMem_id⟩]

/-- A reference has the tag of the type of a key and the id of the instance there. -/
def Names (r : Reference) (schema : Registry) (instances : InstanceRegistry) (key : InstanceKey) :
    Prop :=
  ∃ i entity, instances.instance? key = some i ∧ schema.entity? key.type = some entity ∧
    entity.tag = r.tag ∧ i.id = r.id

end Reference

namespace Resolution

variable {schema : Registry} {instances : InstanceRegistry} {r : Reference}

/-- **In a sealed registry a reference leads to the instance that it names**, and to no other. -/
theorem resolve_eq_ok_iff (consistent : schema.Consistent) (filled : instances.Filled)
    {key : InstanceKey} :
    resolve schema instances r = .ok key ↔
      instances.isSealed = true ∧ r.Names schema instances key := by
  obtain ⟨type, ordinal⟩ := key
  constructor
  · intro found
    obtain ⟨tagged, here⟩ := resolve_eq_ok found
    obtain ⟨entity, declared, tag⟩ := Option.map_eq_some_iff.mp ((consistent.tags r.tag type).mp tagged)
    obtain ⟨i, at_, id⟩ := (filled.ordinalOf?_iff type r.id ordinal).mp here
    refine ⟨?_, i, entity, at_, declared, tag, id⟩
    unfold resolve at found
    split at found
    · cases found
    · rename_i closed
      simpa using closed
  · rintro ⟨closed, i, entity, at_, declared, tag, id⟩
    have tagged : schema.byTag? r.tag = some type := by
      rw [consistent.tags r.tag type, Registry.tagAt, declared, ← tag]
      rfl
    have here := (filled.ordinalOf?_iff type r.id ordinal).mpr ⟨i, at_, id⟩
    simp only [resolve, closed, tagged, here]
    rfl

/-- A reference to a declared target leads to the instance of the target that it names. -/
theorem resolveTyped_eq_ok_iff (consistent : schema.Consistent) (filled : instances.Filled)
    {target : EntityId} {ordinal : Nat} :
    resolveTyped schema instances r target = .ok ordinal ↔
      instances.isSealed = true ∧ r.Names schema instances ⟨target, ordinal⟩ := by
  constructor
  · intro found
    obtain ⟨entity, declared, found⟩ := bind_eq_ok_iff.mp found
    split at found
    · cases found
    · rename_i sameTag
      obtain ⟨key, resolved, last⟩ := bind_eq_ok_iff.mp found
      obtain rfl : key.ordinal = ordinal := Except.ok.inj last
      have held : schema.tagAt target = some r.tag := by
        rw [Registry.tagAt, Registry.get_eq_ok_iff.mp declared, not_not.mp sameTag]
        rfl
      have tagged := (resolve_eq_ok resolved).1
      rw [(consistent.tags r.tag target).mpr held] at tagged
      rw [Option.some.inj tagged]
      exact (resolve_eq_ok_iff consistent filled).mp resolved
  · rintro ⟨closed, named⟩
    have resolved := (resolve_eq_ok_iff consistent filled).mpr ⟨closed, named⟩
    obtain ⟨i, entity, at_, declared, tag, id⟩ := named
    unfold resolveTyped
    rw [Registry.get_eq_ok_iff.mpr declared, resolved]
    change (if r.tag ≠ entity.tag then _ else _) = _
    rw [if_neg (not_not.mpr tag.symm)]
    rfl

end Resolution

namespace History

open Resolution

/-- The tag of a declared type has no slash. -/
theorem separator_notMem_tag {schema : Registry} (consistent : schema.Consistent) {id : EntityId}
    {entity : EntityType} (declared : schema.entity? id = some entity) :
    Reference.separator ∉ entity.tag.toList := by
  rw [(consistent.fits id entity declared).tag_eq]
  exact Text.slash_notMem_snakeCase entity.name

/-- **References address instances exactly.** Of a sealed registry, the payload that is written of the
tag and the id of an instance leads back to the instance, unless one of them is empty or the id has a
slash; then the payload is malformed. A payload that is read is written of its tag and its id, with
one slash between them, and leads, if anywhere, to an instance that has both. -/
theorem references_address (calls : List Call) {h : History} (reached : run calls = h)
    (closed : h.instances.isSealed = true) :
    (∀ key i, h.instances.instance? key = some i →
      ∃ entity, h.schema.entity? key.type = some entity ∧
        ((entity.tag ≠ "" ∧ i.id ≠ "" ∧ '/' ∉ i.id.toList →
          ∃ r, Reference.parse (entity.tag ++ "/" ++ i.id) = .ok r ∧
            resolve h.schema h.instances r = .ok key) ∧
        (¬ (entity.tag ≠ "" ∧ i.id ≠ "" ∧ '/' ∉ i.id.toList) →
          Reference.parse (entity.tag ++ "/" ++ i.id) =
            fail (.malformedReference (entity.tag ++ "/" ++ i.id))))) ∧
    ∀ payload r, Reference.parse payload = .ok r →
      r.display = payload ∧ payload.toList.count '/' = 1 ∧
        payload = r.tag ++ "/" ++ r.id ∧ r.tag ≠ "" ∧ r.id ≠ "" ∧
        ∀ key, resolve h.schema h.instances r = .ok key → r.Names h.schema h.instances key := by
  subst reached
  have sound := run_sound calls
  have consistent := sound.reachable.consistent
  have filled := filled_run calls
  refine ⟨fun key i found => ?_, fun payload r read => ?_⟩
  · obtain ⟨kept, here⟩ := sound.keeps.instance?_iff.mp found
    obtain ⟨entity, declared, _⟩ := sound.keeps.declared i kept
    have declared : (run calls).schema.entity? key.type = some entity := by
      rw [← here]
      exact declared
    have read : Reference.parse (entity.tag ++ "/" ++ i.id) = _ :=
      Reference.parse_display (r := ⟨entity.tag, i.id⟩) (separator_notMem_tag consistent declared)
    refine ⟨entity, declared, fun writable => ?_, fun unwritable => ?_⟩
    · refine ⟨_, read.trans (if_pos writable), ?_⟩
      exact (resolve_eq_ok_iff consistent filled).mpr
        ⟨closed, i, entity, found, declared, rfl, rfl⟩
    · exact read.trans (if_neg unwritable)
  · obtain ⟨written, writable⟩ := Reference.parse_eq_ok_iff.mp read
    refine ⟨written.symm, ?_, written, writable.tag_ne, writable.id_ne, fun key found => ?_⟩
    · have one : (Reference.separator :: r.id.toList).count Reference.separator = 1 := by
        rw [List.count_cons_self, List.count_eq_zero.mpr writable.notMem_id]
      rw [written, Reference.toList_display, List.count_append, ← Reference.separator, one,
        List.count_eq_zero.mpr writable.notMem_tag]
    · exact ((resolve_eq_ok_iff consistent filled).mp found).2

theorem references_address_coins :
    (run coins).instances.isSealed = true ∧
      ∃ r, Reference.parse "currency_data/gems" = .ok r ∧ r.display = "currency_data/gems" ∧
        resolve (run coins).schema (run coins).instances r = .ok ⟨⟨0⟩, 1⟩ := by
  have closed : (run coins).instances.isSealed = true := by decide +kernel
  have gems : (run coins).instances.instance? ⟨⟨0⟩, 1⟩ =
      some { id := "gems", ordinal := 1, record := { type := ⟨0⟩ } } := by decide +kernel
  have tag : ((run coins).schema.entity? ⟨0⟩).map EntityType.tag = some "currency_data" := by
    decide +kernel
  obtain ⟨written, readBack⟩ := references_address coins rfl closed
  obtain ⟨entity, declared, reads, _⟩ := written _ _ gems
  rw [declared] at tag
  rw [Option.some.inj tag] at reads
  obtain ⟨r, read, found⟩ := reads (by decide)
  exact ⟨closed, r, read, (readBack _ r read).1, found⟩

end History

end EntityForge
