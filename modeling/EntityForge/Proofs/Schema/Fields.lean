import EntityForge.Proofs.Schema.Consistency
import Mathlib.Data.List.Nodup

/-!
The effective fields of a declared type have different names. A declared field that has the name of
an inherited one takes its place, so adding the declared fields to inherited ones repeats no name
(`nodup_names_foldl_addField`), and each declaration hands different names on.
-/

namespace EntityForge.Registry

variable {r : Registry}

theorem findField?_isSome_iff {fields : List Field} {name : String} :
    (findField? fields name).isSome = true ↔ name ∈ fields.map Field.name := by
  simp [findField?]

/-- A field takes the place of one of its name, or its name is a further one. -/
theorem map_name_addField (fields : List Field) (field : Field) :
    (addField fields field).map Field.name =
      if field.name ∈ fields.map Field.name then fields.map Field.name
      else fields.map Field.name ++ [field.name] := by
  unfold addField
  split
  · rename_i present
    rw [if_pos (findField?_isSome_iff.mp present), List.map_map]
    refine List.map_congr_left fun f _ => ?_
    rw [Function.comp_apply]
    split
    · rename_i same
      exact same.symm
    · rfl
  · rename_i absent
    rw [if_neg (fun mem => absent (findField?_isSome_iff.mpr mem)), List.map_append]
    rfl

theorem nodup_names_foldl_addField {declared inherited : List Field}
    (nodup : (inherited.map Field.name).Nodup) :
    ((declared.foldl addField inherited).map Field.name).Nodup := by
  induction declared generalizing inherited with
  | nil => exact nodup
  | cons field rest ih =>
      refine ih ?_
      rw [map_name_addField]
      split
      · exact nodup
      · rename_i absent
        exact List.nodup_append.mpr ⟨nodup, List.nodup_singleton _, fun a mem b last same =>
          absent (List.mem_singleton.mp last ▸ same ▸ mem)⟩

/-- Effective fields have different names in every declared type of the registry. -/
def FieldsDiffer (r : Registry) : Prop :=
  ∀ id entity, r.entity? id = some entity → (entity.fields.map Field.name).Nodup

/-- A new type inherits different names and adds its own. -/
theorem FieldsDiffer.install {declaration : Declaration} {entity : EntityType}
    (differ : r.FieldsDiffer) (consistent : r.Consistent) (admits : r.Admits declaration entity) :
    (r.install entity).FieldsDiffer := by
  intro id e found
  rw [entity?_install (admits.free consistent.names).bound] at found
  split at found
  · cases found
    obtain ⟨parent, parents, same⟩ := admits.flattened
    rw [same]
    refine nodup_names_foldl_addField ?_
    rcases parentOf_eq_ok_iff.mp parents with ⟨_, rfl⟩ | ⟨id, p, _, at_, rfl⟩
    · exact List.nodup_nil
    · exact differ id p at_
  · exact differ id e found

/-- **The effective fields of a declared type have different names.** -/
theorem Reachable.fieldsDiffer (reachable : r.Reachable) : r.FieldsDiffer := by
  refine (reachable.induction (motive := fun r => r.Consistent ∧ r.FieldsDiffer)
    ⟨consistent_empty, ?_⟩ ?_ ?_).2
  · intro id entity found
    simp [Registry.entity?, slot?] at found
  · rintro r name id ⟨consistent, differ⟩ unknown next
    refine ⟨consistent.append unknown next, fun j entity found => differ j entity ?_⟩
    rw [entity?_append] at found
    exact found
  · rintro r declaration entity ⟨consistent, differ⟩ admits
    exact ⟨consistent.install admits, differ.install consistent admits⟩

end EntityForge.Registry
