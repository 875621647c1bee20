import EntityForge.Proofs.Model.Verified
import EntityForge.Proofs.Solidity.Printed
import EntityForge.Proofs.Solidity.Quotes

/-!
Strings of instances in the text of contracts. A literal stands in a line of the text, or in a line of
an array initialiser, which is reflowed when the contract is put together. `Shows` goes from the literal
of a value to those of its parts: to the members in a struct, and by the name of the array initialiser
to its rows. Every literal of a value shows it (`Writes.shows`), so each string of an instance is legible
where the contract has it (`strings_reach_contracts`), but not on one line if it has a line end
(`string_over_lines`).
-/

namespace EntityForge.Solidity

open Source

variable {m : ResolvedModel} {type : FieldType} {text : String}

/-! ### Array initialisers -/

theorem unbroken_arrayName (n : Nat) : Unbroken (arrayName n) :=
  .append (by decide) (.number n)

def arrayHeader (number : Nat) (element : String) : String :=
  s!"function {arrayName number}() internal pure returns ({element}[] memory _arr) \x7b"

def arrayAllocation (length : Nat) (element : String) : String := s!"_arr = new {element}[]({length});"

/-- The line that stores an item at its place. -/
def arrayItem (item : String × Nat) : String := s!"_arr[{item.2}] = {item.1};"

theorem encloses_arrayHeader (number : Nat) : Encloses (arrayHeader number) := by
  refine ⟨"function " ++ arrayName number ++ "() internal pure returns (", "[] memory _arr) \x7b",
    ⟨.append (.append (by decide) (unbroken_arrayName number)) (by decide), ?_⟩, by decide,
    fun element => ?_⟩
  · intro empty
    simpa using congrArg String.toList empty
  · rfl

theorem encloses_arrayAllocation (length : Nat) : Encloses (arrayAllocation length) := by
  refine ⟨"_arr = new ", "[](" ++ toString length ++ ");", by decide,
    ⟨.append (.append (by decide) (.number length)) (by decide), ?_⟩, fun element => ?_⟩
  · intro empty
    simpa using congrArg String.toList empty
  · apply String.toList_inj.mp
    simp only [arrayAllocation, String.toList_append, List.append_assoc]
    rfl

theorem encloses_arrayItem (index : Nat) : Encloses fun item => arrayItem (item, index) := by
  refine ⟨"_arr[" ++ toString index ++ "] = ", ";",
    ⟨.append (.append (by decide) (.number index)) (by decide), ?_⟩, by decide, fun item => rfl⟩
  intro empty
  simpa using congrArg String.toList empty

/-- The text has the array initialiser of a number, which stores the given rows. -/
def Initialises (text : String) (number : Nat) (rows : List String) : Prop :=
  ∃ element element' : String, Prints text (Source.blank ::
    Source.block (arrayHeader number element)
      (.plain (arrayAllocation rows.length element') :: rows.zipIdx.map fun row =>
        .plain (arrayItem row)))

theorem source_eq (array : ArrayInitialiser) :
    array.source = Source.block (arrayHeader array.number array.element.render)
      ((arrayAllocation array.items.length array.element.render ::
        array.items.zipIdx.map fun item => arrayItem (item.1.render, item.2)).map .plain) := by
  rw [ArrayInitialiser.source, List.map_cons, List.map_map]
  rfl

/-- The text is the literal as a reflowed line has it. -/
def IsReflowed (l : Literal) (row : String) : Prop := Reflowed l.render.toList row.toList

/-- An array initialiser that a text has stores the literals of its items, which are reflowed. -/
theorem exists_initialises {array : ArrayInitialiser}
    (prints : Prints text (FunctionDef.array array).source) :
    ∃ rows, List.Forall₂ IsReflowed array.items rows ∧ Initialises text array.number rows := by
  have framed : ∀ content ∈ arrayAllocation array.items.length array.element.render ::
      array.items.zipIdx.map fun item => arrayItem (item.1.render, item.2), Framed content := by
    refine List.forall_mem_cons.mpr ⟨(encloses_arrayAllocation _).framed _, ?_⟩
    exact List.forall_mem_map.mpr fun item _ => (encloses_arrayItem item.2).framed _
  obtain ⟨header, contents, headers, lines, same⟩ :=
    exists_written_block ((encloses_arrayHeader array.number).framed array.element.render) framed
  obtain _ | ⟨first, others⟩ := lines
  obtain ⟨element, _, rfl⟩ := (encloses_arrayHeader _).exists_content headers
  obtain ⟨element', _, rfl⟩ := (encloses_arrayAllocation _).exists_content first
  have stored : List.Forall₂ (fun item line => ∃ row, IsReflowed item.1 row ∧
      line = arrayItem (row, item.2)) (array.items.zipIdx 0) _ :=
    (List.forall₂_map_left_iff.mp others).imp fun item line here =>
      (encloses_arrayItem item.2).exists_content here
  obtain ⟨rows, each, rfl⟩ := exists_zipIdx_of_forall₂ arrayItem stored
  refine ⟨rows, each, element, element', ?_⟩
  obtain ⟨before, after, split⟩ := prints
  have behind : ∀ lines, written 1 (Source.blank :: lines) =
      written 1 [Source.blank] ++ written 1 lines := fun lines => written_append (balanced_nil.plain "") 1
  refine ⟨before, after, ?_⟩
  rw [split, FunctionDef.source, behind, source_eq, same, ← behind, ← each.length_eq, List.map_cons,
    List.map_map]
  rfl

/-! ### Structs -/

/-- Texts with commas between them are reflowed one by one. -/
theorem exists_reflowed_items {pieces : List String} {shown : String}
    (reflowed : Reflowed (", ".intercalate pieces).toList shown.toList) :
    ∃ pieces', List.Forall₂ (fun piece piece' => Reflowed piece.toList piece'.toList) pieces pieces' ∧
      shown = ", ".intercalate pieces' := by
  induction pieces generalizing shown with
  | nil =>
      rw [String.intercalate_nil] at reflowed
      exact ⟨[], .nil, Unbroken.eq_of_reflowed (by decide) reflowed⟩
  | cons piece rest ih =>
      cases rest with
      | nil =>
          rw [String.intercalate_singleton] at reflowed
          exact ⟨[shown], .cons reflowed .nil, String.intercalate_singleton.symm⟩
      | cons next rest =>
          rw [String.intercalate_cons_cons, String.append_assoc] at reflowed
          have comma : (", " ++ ", ".intercalate (next :: rest)).toList.head? ≠ some '\n' := by
            simp [String.toList_append]
          obtain ⟨first, last, here, behind, rfl⟩ := exists_reflowed_parts reflowed comma
          obtain ⟨last', later, rfl⟩ := Unbroken.exists_rest (by decide) behind
          obtain ⟨others, each, rfl⟩ := ih later
          obtain _ | ⟨second, others⟩ := each
          refine ⟨first :: _ :: _, .cons here (.cons second others), ?_⟩
          rw [String.intercalate_cons_cons, String.append_assoc]

/-- The text of a member of a struct. -/
def memberCell (member : String × String) : String := member.1 ++ ": " ++ member.2

/-- The token number that the struct of a type without an instance has. -/
def tokenCell (entity : EntityType) : List String :=
  if entity.annotations.fungible then ["_token_id: 0"] else []

/-- How a struct literal is written: its members, each with its label, and the token number if the type
has one. -/
def structCell (entity : EntityType) (struct : String) (members : List (String × String)) : String :=
  struct ++ ("(\x7b" ++ (", ".intercalate (members.map memberCell ++ tokenCell entity) ++ "\x7d)"))

theorem unbroken_of_mem_tokenCell {entity : EntityType} {piece : String}
    (mem : piece ∈ tokenCell entity) : Unbroken piece := by
  unfold tokenCell at mem
  split at mem
  · obtain rfl := List.mem_singleton.mp mem
    decide
  · cases mem

theorem render_struct (entity : EntityType) (struct : String) (members : List (String × Literal)) :
    (Literal.struct struct
      (members ++ if entity.annotations.fungible then [("_token_id", .number 0)] else [])).render =
      structCell entity struct (members.map fun member => (member.1, member.2.render)) := by
  rw [Literal.render, renderMembers_eq, List.map_append, structCell, tokenCell, List.map_map,
    String.append_assoc, String.append_assoc]
  split <;> rfl

/-- Members are reflowed by themselves, and the token number stays as it is. -/
theorem exists_reflowed_members {entity : EntityType} {members : List (String × String)}
    {pieces : List String}
    (each : List.Forall₂ (fun piece piece' => Reflowed piece.toList piece'.toList)
      (members.map memberCell ++ tokenCell entity) pieces) :
    ∃ members', List.Forall₂ (fun member member' => Reflowed member.1.toList member'.1.toList ∧
        Reflowed member.2.toList member'.2.toList) members members' ∧
      pieces = members'.map memberCell ++ tokenCell entity := by
  induction members generalizing pieces with
  | nil =>
      rw [List.map_nil, List.nil_append] at each
      refine ⟨[], .nil, ?_⟩
      rw [List.map_nil, List.nil_append, ← List.forall₂_eq_eq_eq, List.forall₂_iff_zip]
      refine ⟨each.length_eq.symm, fun {piece' piece} mem => ?_⟩
      have unbroken := unbroken_of_mem_tokenCell (List.of_mem_zip mem).2
      exact unbroken.eq_of_reflowed (List.forall₂_zip each.flip mem)
  | cons member rest ih =>
      obtain _ | ⟨first, others⟩ := each
      obtain ⟨members', later, rfl⟩ := ih others
      rw [memberCell, String.append_assoc] at first
      have colon : (": " ++ member.2).toList.head? ≠ some '\n' := by simp [String.toList_append]
      obtain ⟨label, rest, labels, behind, rfl⟩ := exists_reflowed_parts first colon
      obtain ⟨cell, cells, rfl⟩ := Unbroken.exists_rest (by decide) behind
      refine ⟨(label, cell) :: members', .cons ⟨labels, cells⟩ later, ?_⟩
      rw [List.map_cons, List.cons_append, memberCell, String.append_assoc]

/-- A struct is reflowed member by member. -/
theorem exists_structCell {entity : EntityType} {struct cell : String}
    {members : List (String × String)}
    (reflowed : Reflowed (structCell entity struct members).toList cell.toList) :
    ∃ struct' members', Reflowed struct.toList struct'.toList ∧
      List.Forall₂ (fun member member' => Reflowed member.1.toList member'.1.toList ∧
        Reflowed member.2.toList member'.2.toList) members members' ∧
      cell = structCell entity struct' members' := by
  rw [structCell] at reflowed
  have opening : ("(\x7b" ++ (", ".intercalate (members.map memberCell ++ tokenCell entity) ++
      "\x7d)")).toList.head? ≠ some '\n' := by
    simp [String.toList_append]
  obtain ⟨struct', rest, structs, behind, rfl⟩ := exists_reflowed_parts reflowed opening
  obtain ⟨rest', inside, rfl⟩ := Unbroken.exists_rest (by decide) behind
  obtain ⟨items, last, within, ends, rfl⟩ := exists_reflowed_parts inside (by decide)
  obtain rfl := Unbroken.eq_of_reflowed (by decide) ends
  obtain ⟨pieces, each, rfl⟩ := exists_reflowed_items within
  obtain ⟨members', memberwise, rfl⟩ := exists_reflowed_members each
  exact ⟨struct', members', structs, memberwise, rfl⟩

/-! ### Values -/

/-- The text shows a value at a place, and all strings inside it. The items of a list stand in the array
initialiser that is called at the place, and the members of a record in the struct. Names of types and
fields are reflowed like everything else. -/
inductive Shows (m : ResolvedModel) (text : String) : FieldType → Value → String → Prop where
  | nil (type : FieldType) (cell : String) : Shows m text type .nil cell
  | int (type : FieldType) (n : Int) (cell : String) : Shows m text type (.int n) cell
  | ref (type : FieldType) (r : Reference) (cell : String) : Shows m text type (.ref r) cell
  | string {type : FieldType} {s cell : String} : Legible s cell → Shows m text type (.string s) cell
  | list {type element : FieldType} {items : List Value} {number : Nat} {rows : List String} :
      type.unwrap = .list element → Initialises text number rows → items.length = rows.length →
      (∀ item row, (item, row) ∈ items.zip rows → Shows m text element item row) →
      Shows m text type (.list items) (arrayName number ++ "()")
  | record {type : FieldType} {target actual : EntityId} {entity : EntityType}
      {struct struct' : String} {fields : List (String × Value)} {members : List (String × String)} :
      type.unwrap = .embedded target → m.schema.entity? actual = some entity →
      structName m actual = .ok struct → Reflowed struct.toList struct'.toList →
      List.Forall₂ (fun field member => Reflowed (memberName field.name).toList member.1.toList)
        entity.fields members →
      (∀ field member, (field, member) ∈ entity.fields.zip members →
        Shows m text field.type ((SortedMap.find? compare field.name fields).getD .nil) member.2) →
      Shows m text type (.record actual fields) (structCell entity struct' members)

/-- **A literal shows its value** where the text has the array initialisers that it calls. -/
theorem Writes.shows {arrays : List ArrayInitialiser} {value : Value} {l : Literal}
    (writes : Writes m arrays type value l)
    (prints : ∀ array ∈ arrays, Prints text (FunctionDef.array array).source) :
    ∀ cell, IsReflowed l cell → Shows m text type value cell := by
  induction writes with
  | nil _ =>
      intro cell _
      exact .nil _ cell
  | int n _ =>
      intro cell _
      exact .int _ n cell
  | ref _ _ =>
      intro cell _
      exact .ref _ _ cell
  | string s _ =>
      intro cell reflowed
      rw [IsReflowed, Literal.render] at reflowed
      exact .string (legible_of_reflowed reflowed)
  | @list _ element items array fits mem _ lengths _ ih =>
      intro cell reflowed
      rw [IsReflowed, Literal.render] at reflowed
      have call : Unbroken (arrayName array.number ++ "()") :=
        (unbroken_arrayName array.number).append (by decide)
      obtain rfl := call.eq_of_reflowed reflowed
      obtain ⟨rows, each, initialises⟩ := exists_initialises (prints array mem)
      have shown : List.Forall₂ (fun item l => ∀ cell, IsReflowed l cell →
          Shows m text element item cell) items array.items := List.forall₂_iff_zip.mpr ⟨lengths, fun there => ih _ _ there⟩
      have rowwise : List.Forall₂ (Shows m text element) items rows :=
        forall₂_partners (fun l item row shows reflowed => shows row reflowed) shown.flip each
      exact .list fits initialises rowwise.length_eq fun item row there =>
        List.forall₂_zip rowwise there
  | @record _ _ actual entity struct fields members fits declared named names _ ih =>
      intro cell reflowed
      rw [IsReflowed, render_struct] at reflowed
      obtain ⟨struct', members', structs, each, rfl⟩ := exists_structCell reflowed
      have shown := forall₂_eq_and_iff.mpr ⟨names, ih⟩
      have memberwise : List.Forall₂ (fun field member =>
          Reflowed (memberName field.name).toList member.1.toList ∧
          Shows m text field.type ((SortedMap.find? compare field.name fields).getD .nil) member.2)
          entity.fields members' := by
        refine forall₂_partners ?_ shown.flip (List.forall₂_map_left_iff.mp each)
        intro member field member' here there
        obtain ⟨label, shows⟩ := here
        obtain ⟨labels, cell⟩ := there
        exact ⟨label ▸ labels, shows _ cell⟩
      exact .record fits declared named structs (memberwise.imp fun _ _ here => here.1)
        fun field member there => (List.forall₂_zip memberwise there).2

/-! ### Instances -/

/-- The text shows the fields of an instance of a type: its factory assigns the literal of each to the
member of the field. -/
def ShowsFields (m : ResolvedModel) (type : EntityId) (text : String) (i : Instance) : Prop :=
  ∃ (entity : EntityType) (ident struct : String) (cells : List String),
    m.schema.entity? type = some entity ∧ identifierOf m type = .ok ident ∧
    structName m type = .ok struct ∧
    List.Forall₂ (fun field cell => Shows m text field.type ((i.record.get? field.name).getD .nil) cell)
      entity.fields cells ∧
    Prints text (function s!"{identifier i.id}() public pure returns ({struct} memory _{ident})"
      (List.zipWith (fun field cell => .plain s!"_{ident}.{memberName field.name} = {cell};")
          entity.fields cells ++
        ((m.instances.tokenId? i.key).map fun n => .plain s!"_{ident}._token_id = {n};").toList))

/-- The text shows the levels of an instance of a ladder type: its initialiser stores the literal of
each at its place. -/
def ShowsLevels (m : ResolvedModel) (type : EntityId) (text : String) (i : Instance) : Prop :=
  ∃ (level : EntityId) (table : LadderTable) (ident : String) (levels : List Value)
      (cells : List String),
    m.levelType? type = some level ∧ m.ladder? i.key = some table ∧ identifierOf m type = .ok ident ∧
    i.record.get? "levels" = some (.list levels) ∧
    List.Forall₂ (Shows m text (.embedded level)) levels cells ∧
    Prints text (function s!"initialize_{ident}_{identifier i.id}() public"
      (cells.zipIdx.map (levelLine ident i) ++
        [Source.blank, .plain s!"{maxTable ident}[{i.ordinal}] = {table.maxLevel};"]))

/-- The contracts show the instances: those of data types their fields, those of ladder types their
levels. -/
structure ShowsInstances (m : ResolvedModel) : Prop where
  fields : ∀ type source, dataContract m type = .ok source →
    ∀ i ∈ m.instances.instancesOf type, ShowsFields m type source.text i
  levels : ∀ type source, ladderContract m type = .ok source →
    ∀ i ∈ m.instances.instancesOf type, ShowsLevels m type source.text i

theorem isReflowed_render (l : Literal) : IsReflowed l l.render := .refl _

theorem Assigns.showsFields {type : EntityId} {c : DataLayout} {i : Instance}
    {block : FunctionDef × List ArrayInitialiser} {literals : List Literal}
    (describes : Describes m type c) (assigns : Assigns m c i block literals)
    (factory : Prints text block.1.source)
    (arrays : ∀ array ∈ block.2, Prints text (FunctionDef.array array).source) :
    ShowsFields m type text i := by
  obtain ⟨each, made⟩ := assigns
  refine ⟨c.entity, c.ident, c.struct, literals.map Literal.render, describes.declared,
    describes.identNamed, describes.structNamed, ?_, ?_⟩
  · rw [List.forall₂_map_right_iff]
    refine each.imp fun field l here => ?_
    obtain ⟨t, t', run, below⟩ := here
    exact (writes_of_literal _ _ run below).shows arrays _ (isReflowed_render l)
  · rw [made, source_factory] at factory
    rw [List.zipWith_map_right]
    exact factory

theorem StoresLevels.showsLevels {type level : EntityId} {ident : String} {i : Instance}
    {block : Source × List ArrayInitialiser} (ofLevels : m.levelType? type = some level)
    (named : identifierOf m type = .ok ident)
    (lists : ∀ table, m.ladder? i.key = some table → table.Lists i.record)
    (stores : StoresLevels m level ident i block) (initialiser : Prints text block.1)
    (arrays : ∀ array ∈ block.2, Prints text (FunctionDef.array array).source) :
    ShowsLevels m type text i := by
  obtain ⟨table, literals, kept, each, made⟩ := stores
  obtain ⟨levels, set, _⟩ := lists table kept
  rw [set] at each
  refine ⟨level, table, ident, levels, literals.map Literal.render, ofLevels, kept, named, set, ?_, ?_⟩
  · rw [List.forall₂_map_right_iff]
    exact each.imp fun entry l writes => writes.shows arrays _ (isReflowed_render l)
  · rwa [made, levelFunction_eq] at initialiser

/-- **Every string of an instance stands in its contract**, at the place of the value that holds it. What
is read there is the string if it has no line ends; otherwise the literal runs over several lines, and
in an array the line ends are reflowed. -/
theorem strings_reach_contracts {schema : Registry} {instances : InstanceRegistry}
    (reachable : schema.Reachable) (filled : instances.Filled)
    (built : ResolvedModel.build schema instances = .ok m) : ShowsInstances m := by
  have verified := ResolvedModel.verified_of_build reachable.consistent filled built
  constructor
  · intro type source written i mem
    obtain ⟨c, describes, rfl, assigns⟩ := exists_layout verified.consistent written
    have prints := describes.prints assigns
    rw [← describes.instances_eq] at mem
    obtain ⟨block, listed, literals, assigned⟩ := (exists_of_forall₂ assigns).1 i mem
    have inside : block.1 :: block.2.map FunctionDef.array ⊆ c.functions := fun f called =>
      List.mem_append_right _ (List.mem_flatMap.mpr ⟨block, listed, called⟩)
    obtain ⟨factory, arrays⟩ := List.forall_mem_cons.mp fun f called => prints f (inside called)
    exact assigned.showsFields describes factory fun array called =>
      arrays _ (List.mem_map_of_mem called)
  · intro type source written i mem
    obtain ⟨level, ident, blocks, named, ofLevels, stores, prints⟩ := exists_levels written
    obtain ⟨block, listed, stored⟩ := (exists_of_forall₂ stores).1 i mem
    obtain ⟨initialiser, arrays⟩ := prints block listed
    exact stored.showsLevels ofLevels named
      (fun table kept => lists_of_ladder? filled built mem kept) initialiser arrays

/-- Strings with quotes and backslashes: in a field, in a list of lists and in a level of a ladder. -/
def epithets : List Call := [
  .schema (.declare {
    name := "HeroLevelLadderData"
    fields := [
      { name := "experience", type := .scalar .int }, { name := "title", type := .scalar .string }] }),
  .schema (.declare {
    name := "HeroLadderData", fields := [{ name := "levels", type := .list (.embedded ⟨0⟩) }]
    annotations := { ladder := true }, root := some .dataCatalog }),
  .schema (.declare {
    name := "HeroData"
    fields := [
      { name := "name", type := .scalar .string },
      { name := "titles", type := .list (.list (.scalar .string)) }]
    root := some .dataCatalog }),
  .register "default" {
    type := ⟨1⟩
    fields := [("levels", .list [
      .record ⟨0⟩ [("experience", .int 100), ("title", .string "the \"wise\"")]])] },
  .register "odo" {
    type := ⟨2⟩
    fields := [("name", .string "O\\do"), ("titles", .list [.list [.string "\"Od\""]])] },
  .close]

/-- Whether the contracts of a ladder type and of a data type hold the given functions. -/
def rendersStrings (calls : List Call) (ladder data : Source) : Except Error Bool := do
  let m ← ResolvedModel.build (History.run calls).schema (History.run calls).instances
  let levels ← ladderContract m ⟨1⟩
  let fields ← dataContract m ⟨2⟩
  return ladder <:+: levels ∧ data <:+: fields

theorem strings_reach_contracts_epithets : ∃ m ladder data,
    ResolvedModel.build (History.run epithets).schema (History.run epithets).instances = .ok m ∧
      ladderContract m ⟨1⟩ = .ok ladder ∧ dataContract m ⟨2⟩ = .ok data ∧
      [.plain ("_hero_ladder_data_levels[0][0] = hero_level_ladder_data_t(\x7bexperience: 100, " ++
        "title: \"the \\\"wise\\\"\"\x7d);")] <:+: ladder ∧
      function "odo() public pure returns (hero_data_t memory _hero_data)" [
        .plain "_hero_data.name = \"O\\\\do\";", .plain "_hero_data.titles = get_array_2();"] <:+:
          data ∧
      ShowsInstances m := by
  have renders : rendersStrings epithets
      [.plain ("_hero_ladder_data_levels[0][0] = hero_level_ladder_data_t(\x7bexperience: 100, " ++
        "title: \"the \\\"wise\\\"\"\x7d);")]
      (function "odo() public pure returns (hero_data_t memory _hero_data)" [
        .plain "_hero_data.name = \"O\\\\do\";", .plain "_hero_data.titles = get_array_2();"]) =
        .ok true := by
    decide +kernel
  obtain ⟨m, built, run⟩ := bind_eq_ok_iff.mp renders
  obtain ⟨ladder, levels, run⟩ := bind_eq_ok_iff.mp run
  obtain ⟨data, fields, checked⟩ := bind_eq_ok_iff.mp run
  obtain ⟨inLadder, inData⟩ := of_decide_eq_true (Except.ok.inj checked)
  exact ⟨m, ladder, data, built, levels, fields, inLadder, inData,
    strings_reach_contracts (History.run_sound epithets).1 (History.filled_run epithets) built⟩

/-- Strings with line ends, in a field and in a list. -/
def verses : List Call := [
  .schema (.declare {
    name := "HeroData"
    fields := [
      { name := "name", type := .scalar .string },
      { name := "titles", type := .list (.scalar .string) }]
    root := some .dataCatalog }),
  .register "a" {
    type := ⟨0⟩, fields := [("name", .string "a\nb"), ("titles", .list [.string "a\r\nb"])] },
  .close]

/-- Whether the first type has one instance, with the given values, and its contract is written with the
given lines in one place and in another one. -/
def rendersLines (calls : List Call) (values : List (String × Value)) (one other : List String) :
    Except Error Bool := do
  let m ← ResolvedModel.build (History.run calls).schema (History.run calls).instances
  let source ← dataContract m ⟨0⟩
  return (m.instances.instancesOf ⟨0⟩).map (·.record.fields) = [values] ∧
    one <:+: rendered 0 source ∧ other <:+: rendered 0 source

/-- Lines that stand in a source stand in its text, with their line ends. -/
theorem exists_text_of_lines {source : Source} {lines : List String} {piece : String}
    (joined : String.join (lines.map (· ++ "\n")) = piece) (inside : lines <:+: rendered 0 source) :
    ∃ before after, source.text = before ++ piece ++ after := by
  obtain ⟨before, after, split⟩ := inside
  refine ⟨String.join (before.map (· ++ "\n")), String.join (after.map (· ++ "\n")), ?_⟩
  rw [text_eq, written, ← split, List.map_append, List.map_append, String.join_append,
    String.join_append, joined]

/-- **A string with a line end does not stay on one line**, and in an array it is not read back: the
return before the line end is lost, and an indentation is added behind it. -/
theorem string_over_lines : ∃ m source,
    ResolvedModel.build (History.run verses).schema (History.run verses).instances = .ok m ∧
      dataContract m ⟨0⟩ = .ok source ∧
      (m.instances.instancesOf ⟨0⟩).map (·.record.fields) =
        [[("name", .string "a\nb"), ("titles", .list [.string "a\r\nb"])]] ∧
      (∃ before after,
        source.text = before ++ "        _hero_data.name = \"a\nb\";\n" ++ after) ∧
      (∃ before after,
        source.text = before ++ "        _arr[0] = \"a\n    b\";\n" ++ after) ∧
      readQuoted "\"a\n    b\";\n".toList = some ("a\n    b".toList, ";\n".toList) := by
  have renders : rendersLines verses
      [("name", .string "a\nb"), ("titles", .list [.string "a\r\nb"])]
      ["        _hero_data.name = \"a\nb\";"] ["        _arr[0] = \"a", "    b\";"] = .ok true := by
    decide +kernel
  obtain ⟨m, built, run⟩ := bind_eq_ok_iff.mp renders
  obtain ⟨source, written, checked⟩ := bind_eq_ok_iff.mp run
  obtain ⟨values, one, other⟩ := of_decide_eq_true (Except.ok.inj checked)
  exact ⟨m, source, built, written, values, exists_text_of_lines (by decide +kernel) one,
    exists_text_of_lines (by decide +kernel) other, by decide⟩

end EntityForge.Solidity
