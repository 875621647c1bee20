import EntityForge.Proofs.Generation.Rendering
import EntityForge.Proofs.Instances.Histories
import EntityForge.Proofs.Model.Categories
import EntityForge.Proofs.Model.Verified
import EntityForge.Proofs.SortedMaps
import EntityForge.Proofs.Text.Separators

/-!
The files of the classes of a model. A slash separates words and the pieces that paths leave out have
none, so equal paths have the same words (`Path.words_text`). Names of types with the same words have
the same tag, and tags differ; so no two types share the file of their class, whatever their names
(`eq_of_compare_classFile`), and a class is only refused when the name of its type leads away from
the output root.
-/

namespace EntityForge

open OutputTree

/-! ### Words of paths -/

namespace Path

/-- The path does not stay below the directory that it is appended to: it is absolute, starts with a
`.`, or has a `..`. -/
def Escapes (path : Path) : Prop :=
  path.components.head? = some .root ∨ path.components.head? = some .current ∨
    .parent ∈ path.components

instance (path : Path) : Decidable path.Escapes := inferInstanceAs (Decidable (_ ∨ _ ∨ _))

/-- A path stays inside exactly if it does not escape: the root and a `.` come first or not at all. -/
theorem staysInside_eq_false_iff {path : Path} : staysInside path = false ↔ path.Escapes := by
  obtain ⟨start, components, marks⟩ := path.components_eq
  have later : ∀ component ∈ path.moves.map moveComponent,
      component ≠ .root ∧ component ≠ .current := by
    intro component mem
    obtain ⟨piece, _, rfl⟩ := List.mem_map.mp mem
    unfold moveComponent
    split <;> simp
  rw [staysInside, List.all_eq_false]
  constructor
  · rintro ⟨component, mem, marked⟩
    rw [components, List.mem_append] at mem
    cases component with
    | name text => exact absurd rfl marked
    | parent => exact .inr (.inr (components ▸ List.mem_append.mpr mem))
    | root =>
        have first := mem.resolve_right fun mem => (later _ mem).1 rfl
        refine .inl ?_
        rcases marks with rfl | rfl | rfl <;> simp_all
    | current =>
        have first := mem.resolve_right fun mem => (later _ mem).2 rfl
        refine .inr (.inl ?_)
        rcases marks with rfl | rfl | rfl <;> simp_all
  · rintro (root | current | parent)
    · exact ⟨.root, List.mem_of_head? root, by simp⟩
    · exact ⟨.current, List.mem_of_head? current, by simp⟩
    · exact ⟨.parent, parent, by simp⟩

/-- The words of a path are those of its moves. -/
theorem words_text (path : Path) : Text.words path.text = path.moves.flatMap Text.words := by
  have pieces : Text.words path.text = path.pieces.flatMap Text.words := by
    have text : path.text = String.ofList (['/'].intercalate (path.text.toList.splitOn '/')) := by
      rw [List.intercalate_splitOn, String.ofList_toList]
    rw [pieces_eq, List.flatMap_map]
    conv_lhs => rw [text]
    exact Text.words_intercalate (by decide) _
  have still : ∀ piece, isMove piece = false → Text.words piece = [] := by
    intro piece stays
    rcases isMove_eq_false_iff.mp stays with rfl | rfl <;> decide
  rw [pieces, moves]
  induction path.pieces with
  | nil => rfl
  | cons piece rest ih =>
      cases moving : isMove piece with
      | true => simp [moving, ih]
      | false => simp [moving, still, ih]

theorem moveComponent_injective : Function.Injective moveComponent := by
  intro a b same
  unfold moveComponent at same
  grind

end Path

/-! ### Refused files -/

namespace OutputTree

variable {tree : OutputTree} {path : Path} {contents : String} {e : Error}

/-- The error of a path that does not stay below the output root. -/
def refused (path : Path) : Error where
  cause := .internal
    ("output path " ++ path.text ++ " must be relative and stay inside the output root")

/-- The error of a path that the tree has already. -/
def repeated (path : Path) : Error where
  cause := .internal ("output path " ++ path.text ++ " emitted twice")

theorem refused_ne_repeated (path other : Path) : refused path ≠ repeated other := by
  intro same
  injection same with causes
  injection causes with texts
  have lasts := congrArg (fun text : String => text.toList.getLast?) texts
  have root : " must be relative and stay inside the output root".toList.getLast? = some 't' := rfl
  have twice : " emitted twice".toList.getLast? = some 'e' := rfl
  simp [String.toList_append, List.getLast?_append, root, twice, -String.reduceToList] at lasts

/-- A file is refused for its path, or because the tree has the path. -/
theorem insert_eq_error_iff : tree.insert path contents = .error e ↔
    path.Escapes ∧ e = refused path ∨
      ¬ path.Escapes ∧ (tree.get? path).isSome ∧ e = repeated path := by
  rw [← Path.staysInside_eq_false_iff, OutputTree.insert]
  cases staysInside path with
  | false =>
      constructor
      · exact fun failed => .inl ⟨rfl, (Except.error.inj failed).symm⟩
      · rintro (⟨_, rfl⟩ | ⟨outside, _⟩)
        · rfl
        · exact absurd rfl outside
  | true =>
      cases tree.get? path with
      | none => simp
      | some text =>
          constructor
          · exact fun failed => .inr ⟨Bool.noConfusion, rfl, (Except.error.inj failed).symm⟩
          · rintro (⟨inside, _⟩ | ⟨_, _, rfl⟩)
            · cases inside
            · rfl

end OutputTree

/-! ### Files of classes -/

namespace CSharp

/-- The file of the class of a type. -/
def classFile (entity : EntityType) : Path := ⟨entity.name ++ ".cs"⟩

theorem words_classFile (entity : EntityType) :
    Text.words (classFile entity).text = Text.words entity.name ++ Text.words "cs" := by
  have text : (classFile entity).text =
      String.ofList (entity.name.toList ++ '.' :: "cs".toList) := by
    apply String.toList_inj.mp
    simp [classFile]
  rw [text, Text.words_append_cons (by decide), String.ofList_toList, String.ofList_toList]

section

variable {m : ResolvedModel} {a b entity : EntityType} {type other : EntityId}
  {projectNamespace : String} {tree : OutputTree} {entries : List (EntityId × Category)}

/-- Types whose classes share a file are equal: their names have the same words, so they have the
same tag. -/
theorem eq_of_compare_classFile (verified : m.Verified) (declared : m.schema.entity? type = some a)
    (declared' : m.schema.entity? other = some b) (inside : staysInside (classFile b) = true)
    (same : (classFile a).compare (classFile b) = .eq) : type = other := by
  have components := Path.eq_of_compareComponents same
  have inside' : staysInside (classFile a) = true := by rwa [staysInside, components]
  rw [(components_of_staysInside inside).1, (components_of_staysInside inside').1] at components
  have moves := Path.moveComponent_injective.list_map components
  have words : Text.words a.name = Text.words b.name := by
    have files := congrArg (List.flatMap Text.words) moves
    rw [← Path.words_text, ← Path.words_text, words_classFile, words_classFile] at files
    exact List.append_cancel_right files
  have tagged (id : EntityId) (entity : EntityType) (found : m.schema.entity? id = some entity) :
      entity.tag = Text.snakeCase entity.name :=
    (verified.consistent.fits id entity found).tag_eq
  refine verified.consistent.eq_of_tag declared declared' ?_
  rw [tagged type a declared, tagged other b declared', Text.snakeCase, Text.snakeCase, words]

/-- A file is that of the class of a type. -/
def IsClassFile (m : ResolvedModel) (projectNamespace : String) (entry : EntityId × Category)
    (file : Path × String) : Prop :=
  ∃ entity, m.schema.entity? entry.1 = some entity ∧
    file = (classFile entity, (classSource m.schema projectNamespace entity).text)

/-- The tree has one file for the class of each of some types, and no others. -/
def HoldsClasses (m : ResolvedModel) (projectNamespace : String) (tree : OutputTree)
    (entries : List (EntityId × Category)) : Prop :=
  ∃ files, List.Forall₂ (IsClassFile m projectNamespace) entries files ∧ tree.files.Perm files

theorem IsClassFile.unique {entry : EntityId × Category} {file file' : Path × String}
    (isFile : IsClassFile m projectNamespace entry file)
    (isFile' : IsClassFile m projectNamespace entry file') : file' = file := by
  obtain ⟨_, declared, rfl⟩ := isFile
  obtain ⟨_, declared', rfl⟩ := isFile'
  cases declared.symm.trans declared'
  rfl

theorem HoldsClasses.mem_iff (holds : HoldsClasses m projectNamespace tree entries)
    {file : Path × String} :
    file ∈ tree.files ↔ ∃ entry ∈ entries, IsClassFile m projectNamespace entry file := by
  obtain ⟨files, each, perm⟩ := holds
  obtain ⟨ofEntries, ofFiles⟩ := exists_of_forall₂ each
  rw [perm.mem_iff]
  constructor
  · exact ofFiles file
  · rintro ⟨entry, listed, isFile⟩
    obtain ⟨file', mem, isFile'⟩ := ofEntries entry listed
    exact isFile.unique isFile' ▸ mem

/-- The file of the class of a declared type is that of the type itself, or there is none. -/
theorem HoldsClasses.exists_of_compare (verified : m.Verified) (proper : tree.Proper)
    (holds : HoldsClasses m projectNamespace tree entries)
    (declared : m.schema.entity? type = some entity) :
    ∀ file ∈ tree.files, (classFile entity).compare file.1 = .eq →
      (∃ category, (type, category) ∈ entries) ∧
        file = (classFile entity, (classSource m.schema projectNamespace entity).text) := by
  intro file mem same
  obtain ⟨⟨other, category⟩, listed, entity', declared', rfl⟩ := holds.mem_iff.mp mem
  have inside := proper.inside (classFile entity', _) mem
  obtain rfl := eq_of_compare_classFile verified declared declared' inside same
  cases declared.symm.trans declared'
  exact ⟨⟨category, listed⟩, rfl⟩

theorem addClass_of_escapes {category : Category}
    (declared : m.schema.entity? type = some entity) (escapes : (classFile entity).Escapes) :
    addClass m.schema projectNamespace tree (type, category) =
      .error (refused (classFile entity)) :=
  bind_eq_error_iff.mpr (.inr ⟨entity, Registry.get_eq_ok_iff.mpr declared,
    insert_eq_error_iff.mpr (.inl ⟨escapes, rfl⟩)⟩)

/-- The class of one more type is added, unless its path leads away from the output root. -/
theorem HoldsClasses.exists_addClass (category : Category) (verified : m.Verified)
    (proper : tree.Proper) (holds : HoldsClasses m projectNamespace tree entries)
    (declared : m.schema.entity? type = some entity) (new : type ∉ entries.map Prod.fst)
    (inside : ¬ (classFile entity).Escapes) :
    ∃ tree', addClass m.schema projectNamespace tree (type, category) = .ok tree' ∧
      tree'.Proper ∧ HoldsClasses m projectNamespace tree' (entries ++ [(type, category)]) := by
  have missing : tree.get? (classFile entity) = none := by
    refine SortedMap.find?_eq_none fun file mem same => new ?_
    obtain ⟨⟨_, listed⟩, _⟩ := holds.exists_of_compare verified proper declared file mem same
    exact List.mem_map_of_mem listed
  have stays : staysInside (classFile entity) = true := by
    rwa [← Bool.not_eq_false, Path.staysInside_eq_false_iff]
  let text := (classSource m.schema projectNamespace entity).text
  have inserted : tree.insert (classFile entity) text =
      .ok { files := SortedMap.insert Path.compare (classFile entity) text tree.files } := by
    rw [OutputTree.insert, if_neg (by simp [stays]), if_neg (by simp [missing])]
  obtain ⟨files, each, perm⟩ := holds
  refine ⟨_, bind_eq_ok_iff.mpr ⟨entity, Registry.get_eq_ok_iff.mpr declared, inserted⟩,
    proper.insert inserted, files ++ [(classFile entity, text)], ?_, ?_⟩
  · exact List.rel_append each (.cons ⟨entity, declared, rfl⟩ .nil)
  · obtain ⟨_, _, added⟩ := insert_eq_ok inserted
    exact added.trans ((perm.cons _).trans (List.perm_append_singleton _ files).symm)

/-- **Classes are added one by one**, unless the path of one leads away from the output root. -/
theorem foldlM_addClass (verified : m.Verified) (proper : tree.Proper)
    (holds : HoldsClasses m projectNamespace tree entries) {more : List (EntityId × Category)}
    (declares : ∀ entry ∈ more, m.schema.Declares entry.1)
    (nodup : ((entries ++ more).map Prod.fst).Nodup) :
    (∃ tree', more.foldlM (addClass m.schema projectNamespace) tree = .ok tree' ∧
      tree'.Proper ∧ HoldsClasses m projectNamespace tree' (entries ++ more)) ∨
    ∃ entry ∈ more, ∃ entity, m.schema.entity? entry.1 = some entity ∧
      (classFile entity).Escapes ∧
      more.foldlM (addClass m.schema projectNamespace) tree = .error (refused (classFile entity)) := by
  induction more generalizing tree entries with
  | nil => exact .inl ⟨tree, rfl, proper, by rwa [List.append_nil]⟩
  | cons entry rest ih =>
      obtain ⟨type, category⟩ := entry
      obtain ⟨⟨entity, declared⟩, others⟩ := List.forall_mem_cons.mp declares
      rw [List.append_cons] at nodup
      by_cases escapes : (classFile entity).Escapes
      · refine .inr ⟨_, List.mem_cons_self, entity, declared, escapes, ?_⟩
        rw [List.foldlM_cons]
        exact bind_eq_error_iff.mpr (.inl (addClass_of_escapes declared escapes))
      · have new : type ∉ entries.map Prod.fst := by
          rw [List.map_append, List.map_append, List.append_assoc, List.nodup_append] at nodup
          exact fun listed => nodup.2.2 _ listed type (by simp) rfl
        obtain ⟨next, added, proper, holds⟩ :=
          holds.exists_addClass category verified proper declared new escapes
        rw [List.append_cons, List.foldlM_cons, added]
        rcases ih proper holds others nodup with done | ⟨entry, mem, failed⟩
        · exact .inl done
        · exact .inr ⟨entry, List.mem_cons_of_mem _ mem, failed⟩

/-- A declared type is classified unless it is abstract or a catalog. -/
theorem exists_mem_entries_iff (verified : m.Verified) (declared : m.schema.entity? type = some entity) :
    (∃ category, (type, category) ∈ m.classification.entries) ↔
      (entity.isAbstract || entity.isCatalog) = false := by
  have computed := Category.ofEntity_eq (verified.consistent.fits _ _ declared).ancestors_declared
  simp only [verified.mem_entries_iff, Registry.Classified, declared, Option.some.injEq,
    exists_eq_left', computed, Except.ok.injEq, ← Option.isSome_iff_exists,
    Category.given_isSome_iff, Bool.or_eq_false_iff, EntityType.isConcrete, EntityType.isCatalog,
    Bool.not_eq_true', beq_eq_false_iff_ne]

/-- A tree covers the classified types of a model: it has one file for each of them, and none for
abstract types and catalogs. -/
structure Covers (m : ResolvedModel) (projectNamespace : String) (tree : OutputTree) : Prop where
  holds : HoldsClasses m projectNamespace tree m.classification.entries
  get?_eq : ∀ type entity, m.schema.entity? type = some entity →
    tree.get? (classFile entity) =
      if entity.isAbstract || entity.isCatalog then none
      else some (classSource m.schema projectNamespace entity).text

theorem HoldsClasses.covers (verified : m.Verified) (proper : tree.Proper)
    (holds : HoldsClasses m projectNamespace tree m.classification.entries) :
    Covers m projectNamespace tree := by
  refine ⟨holds, fun type entity declared => ?_⟩
  have listed := exists_mem_entries_iff verified declared
  have sole := holds.exists_of_compare verified proper declared
  cases excluded : (entity.isAbstract || entity.isCatalog) with
  | true =>
      refine SortedMap.find?_eq_none fun file mem same => ?_
      have clear := listed.mp (sole _ mem same).1
      rw [excluded] at clear
      cases clear
  | false =>
      obtain ⟨category, here⟩ := listed.mpr excluded
      have mem := holds.mem_iff.mpr ⟨_, here, entity, declared, rfl⟩
      cases found : tree.get? (classFile entity) with
      | none =>
          have differs := SortedMap.compare_ne_of_find? found (classFile entity, _) mem
          exact absurd (compareComponents_self _) differs
      | some text =>
          obtain ⟨path, mem, same⟩ := SortedMap.compare_eq_of_find? found
          have file := (sole _ mem same).2
          exact congrArg some (Prod.mk.inj file).2

/-- **Classes cover every classified type exactly once.** A tree of classes has one file for each
classified type, under its name, and none for abstract types and catalogs; and it is only refused
because the name of a classified type leads away from the output root, never for a repeated path. -/
theorem emit_covers {schema : Registry} {instances : InstanceRegistry} (reachable : schema.Reachable)
    (filled : instances.Filled) (built : ResolvedModel.build schema instances = .ok m)
    (projectNamespace : String) :
    (∀ tree, emit projectNamespace m = .ok tree → Covers m projectNamespace tree) ∧
      ∀ e, emit projectNamespace m = .error e → (∀ path, e ≠ repeated path) ∧
        ∃ type category entity, (type, category) ∈ m.classification.entries ∧
          m.schema.entity? type = some entity ∧ (classFile entity).Escapes ∧
          e = refused (classFile entity) := by
  have verified := ResolvedModel.verified_of_build reachable.consistent filled built
  have holds : HoldsClasses m projectNamespace {} [] := ⟨[], .nil, .refl _⟩
  have outcome := foldlM_addClass verified proper_empty holds
    (fun _ mem => verified.declares_of_mem mem) verified.nodup_entries
  rw [← emit, List.nil_append] at outcome
  refine ⟨fun tree done => ?_, fun e failed => ?_⟩
  · rcases outcome with ⟨tree', run, proper, holds⟩ | ⟨_, _, _, _, _, run⟩
    · cases done.symm.trans run
      exact holds.covers verified proper
    · cases done.symm.trans run
  · rcases outcome with ⟨_, run, _⟩ | ⟨⟨type, category⟩, mem, entity, declared, escapes, run⟩
    · cases failed.symm.trans run
    · cases failed.symm.trans run
      exact ⟨refused_ne_repeated _, type, category, entity, mem, declared, escapes, rfl⟩

end

/-- A schema whose catalog and whose base have no classes. -/
def menagerie : List Call := [
  .schema (.declare { name := "Menagerie", root := some .catalog }),
  .schema (.declare {
    name := "BeastData", annotations := { isAbstract := true }, root := some .dataCatalog }),
  .schema (.declare {
    name := "LionData", parent := some ⟨1⟩
    fields := [{ name := "prey", type := .list (.scalar .string) }] }),
  .schema (.declare { name := "Stats", fields := [{ name := "speed", type := .scalar .int }] }),
  .close]

/-- The paths of the classes of a built model, if they can be written. -/
def pathsOfClasses (schema : Registry) (instances : InstanceRegistry) : Except Error (List Path) := do
  let paths ← classPaths (← ResolvedModel.build schema instances)
  return if Writable paths then paths else []

theorem emit_covers_menagerie : ∃ m tree,
    ResolvedModel.build (History.run menagerie).schema (History.run menagerie).instances = .ok m ∧
      emit "Zoo" m = .ok tree ∧ tree.size = 2 ∧ Covers m "Zoo" tree := by
  have named : pathsOfClasses (History.run menagerie).schema (History.run menagerie).instances =
      .ok [⟨"LionData.cs"⟩, ⟨"Stats.cs"⟩] := by
    decide +kernel
  obtain ⟨m, built, run⟩ := bind_eq_ok_iff.mp named
  obtain ⟨paths, found, checked⟩ := bind_eq_ok_iff.mp run
  have kept := Except.ok.inj checked
  split at kept
  case isFalse => cases kept
  next writable =>
    obtain ⟨tree, emitted, lists⟩ := exists_emit_classes "Zoo" found writable
    obtain ⟨covers, _⟩ := emit_covers (History.run_sound menagerie).reachable
      (History.filled_run menagerie) built "Zoo"
    refine ⟨m, tree, built, emitted, ?_, covers tree emitted⟩
    rw [OutputTree.size, ← List.length_map (f := Prod.fst), lists.length_eq, kept]
    rfl

end CSharp

end EntityForge
