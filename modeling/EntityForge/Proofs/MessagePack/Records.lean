import EntityForge.Snapshot.Encoding
import EntityForge.Proofs.MessagePack.Values
import Mathlib.Data.List.Nodup

/-!
Structures are read back from the maps that they are written as. The names of the fields tell the
entries apart, and of the many labels that a reader takes for a field only the name itself is
written, so each field has exactly one entry (`fieldValues?_record`).
-/

namespace EntityForge.MessagePack

/-- A read of a list that gives something for each item gives the list of it. -/
theorem mapM_eq_some_map {α β : Type} {read : α → Option β} {f : α → β} {items : List α}
    (each : ∀ a ∈ items, read a = some (f a)) : items.mapM read = some (items.map f) := by
  induction items with
  | nil => rfl
  | cons a rest ih =>
      obtain ⟨first, others⟩ := List.forall_mem_cons.mp each
      rw [List.mapM_cons, first, ih others]
      rfl

/-- Lists are read back if their items are. -/
theorem listOf?_array {α : Type} {read : MessagePack → Option α} {write : α → MessagePack}
    {items : List α} (each : ∀ a ∈ items, read (write a) = some a) :
    listOf? read (.array (items.map write)) = some items := by
  have all : (items.map write).mapM read = some items := by
    rw [List.mapM_map]
    exact (mapM_eq_some_map each).trans (congrArg some (List.map_id items))
  exact all

/-! ### Texts -/

/-- A text is the only one with its bytes. -/
theorem utf8_inj {s t : String} : utf8 s = utf8 t ↔ s = t := by
  refine ⟨fun same => ?_, congrArg utf8⟩
  have arrays : s.toByteArray.data = t.toByteArray.data := Array.toList_inj.mp same
  exact String.toByteArray_inj.mp (ByteArray.ext arrays)

/-- The bytes of a text are read as the text. -/
@[simp] theorem text?_text (s : String) : (text s).text? = some s := by
  have bytes : (⟨(utf8 s).toArray⟩ : ByteArray) = s.toByteArray := rfl
  change String.fromUTF8? ⟨(utf8 s).toArray⟩ = some s
  rw [bytes, String.fromUTF8?, dif_pos s.isValidUTF8]
  rfl

theorem labels_text (name other : String) (position : Nat) :
    labels name position (text other) = decide (other = name) := by
  rw [Bool.eq_iff_iff, decide_eq_true_eq, ← utf8_inj]
  exact beq_iff_eq

/-! ### Records -/

/-- Of different names, each has one field. -/
theorem filter_name {fields : List (String × MessagePack)} (differ : (fields.map Prod.fst).Nodup)
    {name : String} {value : MessagePack} (mem : (name, value) ∈ fields) :
    fields.filter (·.1 = name) = [(name, value)] := by
  induction fields with
  | nil => cases mem
  | cons field rest ih =>
      obtain ⟨new, differ⟩ := List.nodup_cons.mp differ
      rcases List.mem_cons.mp mem with rfl | later
      · have others : rest.filter (·.1 = name) = [] := by
          refine List.filter_eq_nil_iff.mpr fun other inside => ?_
          rw [decide_eq_true_eq]
          intro same
          exact new (List.mem_map.mpr ⟨other, inside, same⟩)
        rw [List.filter_cons, if_pos (decide_eq_true rfl), others]
      · have other : field.1 ≠ name := by
          intro same
          exact new (List.mem_map.mpr ⟨(name, value), later, same.symm⟩)
        rw [List.filter_cons_of_neg (by simpa using other)]
        exact ih differ later

/-- Of the entries of a structure one is labelled with the name of a field. -/
theorem fieldValue?_map {fields : List (String × MessagePack)}
    (differ : (fields.map Prod.fst).Nodup) {name : String} {value : MessagePack}
    (mem : (name, value) ∈ fields) (position : Nat) :
    fieldValue? (fields.map fun (name, value) => (text name, value)) (name, position) =
      some value := by
  unfold fieldValue?
  rw [List.filter_map, List.filter_congr (fun field _ => labels_text name field.1 position),
    filter_name differ mem]
  rfl

/-- **The fields of a structure are read back.** -/
theorem fieldValues?_record {fields : List (String × MessagePack)}
    (differ : (fields.map Prod.fst).Nodup) :
    fieldValues? (fields.map Prod.fst) (record fields) = some (fields.map Prod.snd) := by
  have labelled : (fields.map fun (name, value) => (text name, value)).all (isLabel ·.1) := by
    refine List.all_eq_true.mpr fun entry listed => ?_
    obtain ⟨field, _, rfl⟩ := List.mem_map.mp listed
    rfl
  have each : ∀ item ∈ fields.zipIdx,
      fieldValue? (fields.map fun (name, value) => (text name, value)) (item.1.1, item.2) =
        some item.1.2 := by
    rintro ⟨⟨name, value⟩, position⟩ listed
    exact fieldValue?_map differ (List.fst_mem_of_mem_zipIdx listed) position
  unfold fieldValues? record
  dsimp only
  rw [if_pos labelled, List.zipIdx_map, List.mapM_map]
  have values : fields.zipIdx.map (fun item => item.1.2) =
      (fields.zipIdx.map Prod.fst).map Prod.snd := List.map_map.symm
  rw [List.zipIdx_map_fst] at values
  exact (mapM_eq_some_map each).trans (congrArg some values)

end EntityForge.MessagePack
