import EntityForge.Proofs.Loading.Parts
import EntityForge.Proofs.SortedMaps
import EntityForge.Proofs.Value.Order

/-!
Objects as maps. Each member of an object gives one binding, whose key is read from the member's name
as the key type of the map says. The names in an object differ, but the keys that are read from them
need not: a number has several spellings. Of the members with one key the last is kept
(`convert_map_keeps`), so a member can be lost without an error (`convert_map_loses`).
-/

namespace EntityForge.Loading

variable {schema : Registry} {type key inner : FieldType} {members : List (String × Json)}

/-- The keys that a map reads from the names of an object's members, in their order. -/
def keysOf (key : FieldType) (members : List (String × Json)) : List (Except Error Value) :=
  members.map fun member => mapKey key member.1

/-- The keys that a map reads from the names of an object's members differ. -/
def KeysDiffer (key : FieldType) (members : List (String × Json)) : Prop := (keysOf key members).Nodup

/-- A member gives a binding: its key is read from the name, its value converted. -/
def GivesBinding (schema : Registry) (key inner : FieldType) (member : String × Json)
    (binding : Value × Value) : Prop :=
  mapKey key member.1 = .ok binding.1 ∧ convert schema inner member.2 = .ok binding.2

/-- The entries hold what a member gives. -/
def Holds (schema : Registry) (key inner : FieldType) (entries : List (Value × Value))
    (member : String × Json) : Prop :=
  ∃ binding, GivesBinding schema key inner member binding ∧
    SortedMap.find? Value.compare binding.1 entries = some binding.2

theorem convertEntries_eq_ok_iff {bindings : List (Value × Value)} :
    convertEntries schema key inner members = .ok bindings ↔
      List.Forall₂ (GivesBinding schema key inner) members bindings := by
  have gives : ∀ member binding, convertMember schema key inner member = .ok binding ↔
      GivesBinding schema key inner member binding := by
    intro member binding
    simp only [convertMember, bind_eq_ok_iff]
    constructor
    · rintro ⟨k, keyed, v, converted, last⟩
      cases last
      exact ⟨keyed, converted⟩
    · rintro ⟨keyed, converted⟩
      exact ⟨_, keyed, _, converted, rfl⟩
  rw [convertEntries_eq_mapM, mapM_eq_ok_iff]
  simp only [gives]

/-- An object is converted to the map of what its members give. -/
theorem convert_map_eq_ok_iff (fits : type.unwrap = .map key inner) {value : Value} :
    convert schema type (.object members) = .ok value ↔
      ∃ bindings, List.Forall₂ (GivesBinding schema key inner) members bindings ∧
        value = .mapOf bindings := by
  rw [convert, if_neg (by simp [Json.isNull]), fits]
  simp only [bind_eq_ok_iff, convertEntries_eq_ok_iff]
  refine exists_congr fun bindings => and_congr_right fun _ => ?_
  exact ⟨fun done => (Except.ok.inj done).symm, fun done => congrArg Except.ok done.symm⟩

section

variable {bindings : List (Value × Value)}
  (given : List.Forall₂ (GivesBinding schema key inner) members bindings)

include given

theorem keysOf_eq : keysOf key members = (bindings.map Prod.fst).map .ok := by
  unfold keysOf
  induction given with
  | nil => rfl
  | cons gives _ ih => rw [List.map_cons, List.map_cons, List.map_cons, gives.1, ih]

theorem keysDiffer_iff : KeysDiffer key members ↔ (bindings.map Prod.fst).Nodup := by
  unfold KeysDiffer
  rw [keysOf_eq given]
  exact List.nodup_map_iff fun _ _ => Except.ok.inj

theorem ok_mem_keysOf_iff {k : Value} : .ok k ∈ keysOf key members ↔ k ∈ bindings.map Prod.fst := by
  rw [keysOf_eq given]
  exact List.mem_map_of_injective fun _ _ => Except.ok.inj

/-- The map holds what the last member with a key gives. -/
theorem find?_ofList_of_given {binding : Value × Value} :
    SortedMap.find? Value.compare binding.1 (SortedMap.ofList Value.compare bindings) =
        some binding.2 ↔
      ∃ before member after, members = before ++ member :: after ∧
        GivesBinding schema key inner member binding ∧ .ok binding.1 ∉ keysOf key after := by
  rw [SortedMap.find?_ofList_eq_some_iff]
  constructor
  · rintro ⟨before, after, rfl, last⟩
    obtain ⟨first, member, rest, rfl, _, gives, later⟩ := exists_split_of_forall₂ given
    exact ⟨first, member, rest, rfl, gives, fun mem => last ((ok_mem_keysOf_iff later).mp mem)⟩
  · rintro ⟨before, member, after, rfl, gives, last⟩
    obtain ⟨first, binding', rest, rfl, _, gives', later⟩ := exists_split_of_forall₂ given.flip
    have same : binding' = binding := Prod.ext (Except.ok.inj (gives'.1.symm.trans gives.1))
      (Except.ok.inj (gives'.2.symm.trans gives.2))
    exact ⟨first, rest, same ▸ rfl, fun mem => last ((ok_mem_keysOf_iff later.flip).mpr mem)⟩

/-- If the keys differ, every member is the last one with its key. -/
theorem holds_of_keysDiffer (differ : KeysDiffer key members) {member : String × Json}
    (mem : member ∈ members) :
    Holds schema key inner (SortedMap.ofList Value.compare bindings) member := by
  obtain ⟨before, after, rfl⟩ := List.append_of_mem mem
  obtain ⟨_, binding, _, _, _, gives, _⟩ := exists_split_of_forall₂ given.flip
  have last : .ok binding.1 ∉ keysOf key after := by
    unfold KeysDiffer keysOf at differ
    rw [List.map_append, List.map_cons, List.nodup_append, List.nodup_cons, gives.1] at differ
    exact differ.2.1.1
  refine ⟨binding, gives, ?_⟩
  apply (find?_ofList_of_given given).mpr
  exact ⟨before, member, after, rfl, gives, last⟩

end

theorem keysDiffer_string (differ : (members.map Prod.fst).Nodup) :
    KeysDiffer (.scalar .string) members := by
  have keys : keysOf (.scalar .string) members =
      (members.map Prod.fst).map fun name => .ok (.string name) := by
    rw [List.map_map]
    rfl
  unfold KeysDiffer
  rw [keys]
  exact (List.nodup_map_iff fun _ _ same => by simpa using same).mpr differ

/-- **A map keeps every member of its object exactly if their keys differ**, as keys of text do. Else
it keeps the last member of each key. -/
theorem convert_map_keeps (fits : type.unwrap = .map key inner) {value : Value}
    (run : convert schema type (.object members) = .ok value) :
    ∃ entries, value = .map entries ∧
      (entries.length = members.length ↔ KeysDiffer key members) ∧
      (KeysDiffer key members → ∀ member ∈ members, Holds schema key inner entries member) ∧
      (∀ binding, SortedMap.find? Value.compare binding.1 entries = some binding.2 ↔
        ∃ before member after, members = before ++ member :: after ∧
          GivesBinding schema key inner member binding ∧ .ok binding.1 ∉ keysOf key after) ∧
      (key = .scalar .string → (members.map Prod.fst).Nodup → KeysDiffer key members) := by
  obtain ⟨bindings, given, rfl⟩ := (convert_map_eq_ok_iff fits).mp run
  refine ⟨_, rfl, ?_, fun differ member mem => ?_, fun _ => find?_ofList_of_given given, ?_⟩
  · rw [keysDiffer_iff given, given.length_eq]
    exact SortedMap.length_ofList_eq_iff
  · exact holds_of_keysDiffer given differ mem
  · rintro rfl differ
    exact keysDiffer_string differ

/-- Maps from numbers to texts. -/
def numberNames : FieldType := .map (.scalar .int) (.scalar .string)

theorem convert_map_keeps_numberNames :
    numberNames.unwrap = .map (.scalar .int) (.scalar .string) ∧
      convert {} numberNames (.object [("10", .string "ten"), ("2", .string "two")]) =
        .ok (.map [(.int 2, .string "two"), (.int 10, .string "ten")]) ∧
      KeysDiffer (.scalar .int) [("10", .string "ten"), ("2", .string "two")] ∧
      Holds {} (.scalar .int) (.scalar .string)
        [(.int 2, .string "two"), (.int 10, .string "ten")] ("10", .string "ten") := by
  have run : convert {} numberNames (.object [("10", .string "ten"), ("2", .string "two")]) =
      .ok (.map [(.int 2, .string "two"), (.int 10, .string "ten")]) := by decide +kernel
  obtain ⟨entries, same, counted, holds, _⟩ := convert_map_keeps rfl run
  cases same
  have differ := counted.mp rfl
  exact ⟨rfl, run, differ, holds differ _ List.mem_cons_self⟩

/-- **A member can be lost**: two names that write one number give one entry. -/
theorem convert_map_loses :
    convert {} numberNames (.object [("01", .string "uno"), ("1", .string "one")]) =
        .ok (.map [(.int 1, .string "one")]) ∧
      ¬ Holds {} (.scalar .int) (.scalar .string) [(.int 1, .string "one")] ("01", .string "uno") := by
  refine ⟨by decide +kernel, ?_⟩
  rintro ⟨⟨k, v⟩, ⟨keyed, converted⟩, found⟩
  have number : mapKey (.scalar .int) "01" = .ok (.int 1) := by decide
  have text : convert {} (.scalar .string) (.string "uno") = .ok (.string "uno") := by decide +kernel
  cases number.symm.trans keyed
  cases text.symm.trans converted
  exact absurd found (by decide)

end EntityForge.Loading
