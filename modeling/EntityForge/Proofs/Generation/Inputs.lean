import EntityForge.Proofs.Generation.Outcomes

/-!
What a run leaves of its input. A configuration alone tells which places its run may write to
(`Config.written`), and what tells nothing of these places is kept by the run (`keeps_run`). So
every file outside of them stays as it is, and if they are apart from the data directory, the same
configuration loads the same documents again (`run_keepsInput`).

The check of a configuration does not ask for that: it compares the output locations with each
other, not with the data directory, so that a snapshot may take the place of a data file
(`run_overwrites_data`).
-/

namespace EntityForge

open FileTree StagedTree

/-! ### Named entries -/

namespace Path

/-- A text that names an entry of a directory. -/
def IsName (text : String) : Prop := text ∉ ["", ".", ".."] ∧ '/' ∉ text.toList

theorem IsName.descends {text : String} (named : IsName text) :
    text.startsWith "/" = false ∧ (Path.mk text).Descends := by
  obtain ⟨other, plain⟩ := named
  constructor
  · by_contra absolute
    obtain ⟨rest, same⟩ := (startsWith_slash_iff text).mp (by simpa using absolute)
    exact plain (by simp [same])
  · rw [Descends, pieces_of_slash_notMem plain]
    intro up
    exact other (by simp [List.mem_singleton.mp up])

end Path

namespace FileTree

variable {a b node : FileTree} {path next : Path} {l : List String}

/-- Every entry of a directory has a name that leads to it. -/
inductive WellNamed : FileTree → Prop where
  | file (contents : ByteArray) : WellNamed (.file contents)
  | directory {entries : List (String × FileTree)} (named : ∀ entry ∈ entries, Path.IsName entry.1)
      (below : ∀ entry ∈ entries, WellNamed entry.2) : WellNamed (.directory entries)

theorem WellNamed.at? (named : a.WellNamed) (found : a.at? l = some node) : node.WellNamed := by
  induction l generalizing a with
  | nil =>
      cases found
      exact named
  | cons name rest ih =>
      rw [FileTree.at?] at found
      obtain ⟨child, entry, inside⟩ := Option.bind_eq_some_iff.mp found
      cases named with
      | file contents => cases entry
      | directory _ below =>
          obtain ⟨key, mem⟩ := SortedMap.exists_mem_of_find? entry
          exact ih (below _ mem) inside

/-- What spares a path spares those that lead down from it. -/
theorem Spares.join (spares : Spares path a b) (relative : next.text.startsWith "/" = false)
    (descends : next.Descends) : Spares (path.join next) a b := by
  have kinds : ∀ m, b.kindAt? (path.location ++ m) = a.kindAt? (path.location ++ m) := fun m => by
    rw [kindAt?_append, kindAt?_append, spares.at?_eq]
  constructor
  · rw [Path.location_join relative descends, at?_append, at?_append, spares.at?_eq]
  · intro m mem kind here
    rcases (Path.mem_trail_join_iff relative descends).mp mem with mem | ⟨front, _, rfl⟩
    · exact spares.kept m mem kind here
    · rw [kinds]
      exact here

theorem mem_entryFilePaths_iff {entries : List (String × FileTree)} {p : Path} :
    p ∈ entryFilePaths path entries ↔
      ∃ entry ∈ entries, p ∈ entry.2.filePaths (path.join ⟨entry.1⟩) := by
  induction entries with
  | nil => simp [entryFilePaths]
  | cons entry rest ih =>
      obtain ⟨name, child⟩ := entry
      rw [entryFilePaths, List.mem_append, ih, List.exists_mem_cons_iff]
      rfl

/-- With a path, the files below it are spared. -/
theorem spares_of_mem_filePaths (named : node.WellNamed) (spares : Spares path a b) {p : Path}
    (mem : p ∈ node.filePaths path) : Spares p a b := by
  induction named generalizing path with
  | file contents =>
      obtain rfl := List.mem_singleton.mp mem
      exact spares
  | directory named _ ih =>
      obtain ⟨entry, listed, mem⟩ := mem_entryFilePaths_iff.mp mem
      obtain ⟨relative, descends⟩ := (named entry listed).descends
      exact ih entry listed (spares.join relative descends) mem

/-! ### Reading again -/

section Again

variable {α β : Type} {program : ExceptT Error (StateM FileTree) α}

/-- Where a program reads its result from a first tree, it reads the same from a second one. -/
def ReadsAgain (a b : FileTree) (program : ExceptT Error (StateM FileTree) α) : Prop :=
  ∀ r, execute program a = (.ok r, a) → execute program b = (.ok r, b)

namespace ReadsAgain

theorem result (result : Except Error α) : ReadsAgain a b (liftM result) := by
  intro r run
  obtain rfl : result = .ok r := congrArg Prod.fst run
  rfl

theorem bind {rest : α → ExceptT Error (StateM FileTree) β} (reads : Keeps Eq program)
    (first : ReadsAgain a b program)
    (next : ∀ r, execute program a = (.ok r, a) → ReadsAgain a b (rest r)) :
    ReadsAgain a b (program >>= rest) := by
  intro s run
  obtain ⟨r, middle, read, run⟩ := execute_bind_eq_ok_iff.mp run
  obtain rfl : a = middle := reads.of_execute read
  exact execute_bind_eq_ok_iff.mpr ⟨r, b, first r read, next r read s run⟩

theorem mapM {items : List β} {program : β → ExceptT Error (StateM FileTree) α}
    (reads : ∀ item, Keeps Eq (program item))
    (each : ∀ item ∈ items, ReadsAgain a b (program item)) : ReadsAgain a b (items.mapM program) := by
  induction items with
  | nil => exact result (.ok [])
  | cons item others ih =>
      obtain ⟨first, rest⟩ := List.forall_mem_cons.mp each
      rw [List.mapM_cons]
      refine bind (reads item) first fun _ _ => ?_
      exact bind (.mapM fun item _ => reads item) (ih rest) fun _ _ => result (.ok _)

/-- What is looked up along a path that was spared is found again. -/
theorem attempt (read : FileTree → Except Fault α) {operation : StateM FileTree (Except Fault α)}
    (performed : ∀ tree, perform operation tree = (read tree, tree))
    (again : ∀ r, read a = .ok r → read b = .ok r) : ReadsAgain a b (Files.attempt path operation) := by
  intro r run
  rw [execute_attempt_eq_ok_iff, performed] at run ⊢
  rw [again r (congrArg Prod.fst run)]

end ReadsAgain

end Again

end FileTree

namespace Config

/-- The places that a run may write to: its snapshot and, unless it is dry, the output roots with
the paths beside them. -/
def written (config : Config) : List Path :=
  config.snapshot.toList ++ if config.dryRun then [] else config.roots.flatMap StagedTree.places

end Config

namespace Generation

variable {config : Config} {model : ResolvedModel} {a b : FileTree}

theorem readsAgain_readDocument {path : Path} (spares : Spares path a b) :
    ReadsAgain a b (Loading.readDocument (m := StateM FileTree) path) := by
  refine .bind (.attempt fun _ => rfl) ?_ fun _ _ => .result _
  refine .attempt (·.readFile path) (fun _ => rfl) fun contents read => ?_
  obtain ⟨node, found, read⟩ := bind_eq_ok_iff.mp read
  exact bind_eq_ok_iff.mpr ⟨node, spares.lookup found, read⟩

/-- The listed files lie at or below the directory. -/
theorem mem_filePaths_of_dataFiles {dir : Path} {files : List Path} {tree tree' : FileTree}
    (run : execute (Loading.dataFiles dir) tree = (.ok files, tree')) :
    ∃ node, tree.lookup dir = .ok node ∧ ∀ path ∈ files, path ∈ node.filePaths dir := by
  obtain ⟨paths, _, listed, sorted⟩ := execute_bind_eq_ok_iff.mp run
  have performed := congrArg Prod.fst (execute_attempt_eq_ok_iff.mp listed)
  obtain ⟨node, found, rfl⟩ := map_eq_ok_iff.mp performed
  obtain rfl := Except.ok.inj (congrArg Prod.fst sorted)
  refine ⟨node, found, fun path mem => ?_⟩
  exact (List.mem_filter.mp (List.mem_mergeSort.mp mem)).1

/-- The documents below a directory that is spared are loaded again. -/
theorem readsAgain_loadDirectory {dir : Path} (named : a.WellNamed) (spares : Spares dir a b)
    (schema : Registry) : ReadsAgain a b (Loading.loadDirectory schema dir) := by
  refine .bind (.result _) (.result _) fun _ _ => ?_
  refine .bind (unchanged_dataFiles dir) ?_ fun files listed => ?_
  · refine .bind (.attempt fun _ => rfl) ?_ fun _ _ => .result (.ok _)
    refine .attempt (fun tree => (tree.lookup dir).map (filePaths dir)) (fun _ => rfl) fun _ read => ?_
    obtain ⟨node, found, rfl⟩ := map_eq_ok_iff.mp read
    exact map_eq_ok_iff.mpr ⟨node, spares.lookup found, rfl⟩
  · obtain ⟨node, found, inside⟩ := mem_filePaths_of_dataFiles listed
    have named := named.at? (lookup_eq_ok_iff.mp found).2.2
    refine .bind (.result _) (.result _) fun _ _ => ?_
    refine .bind (.mapM fun path _ => unchanged_readDocument path) ?_ fun _ _ => .result _
    refine .mapM unchanged_readDocument fun path mem => readsAgain_readDocument ?_
    exact spares_of_mem_filePaths named spares (inside path mem)

theorem readsAgain_resolve (named : a.WellNamed) (spares : Spares config.dataDir a b) :
    ReadsAgain a b (resolve config) := by
  refine .bind (.result _) (.result _) fun schema _ => ?_
  exact .bind (unchanged_loadDirectory schema config.dataDir)
    (readsAgain_loadDirectory named spares schema) fun _ _ => .result _

/-! ### What a run keeps -/

section Keeps

variable {R : FileTree → FileTree → Prop} [Std.Refl R] [IsTrans FileTree R]

theorem keeps_saveSnapshot (ignored : ∀ path ∈ config.snapshot, Ignores R path)
    (model : ResolvedModel) : Keeps R (saveSnapshot config model) := by
  unfold saveSnapshot
  cases asked : config.snapshot with
  | none => exact .pure _
  | some path =>
      exact .bind (.result _) fun s => .attempt (keeps_writeFile (ignored path asked) _)

/-- **A run happens at the places that its configuration names, and beside the output roots.** What
ignores them holds between the trees before and after every run, whether it succeeds or fails. -/
theorem keeps_run (ignored : ∀ place ∈ config.written, Ignores R place) : Keeps R (run config) := by
  have resolving : Keeps R (resolve config) := fun tree => by
    rw [← unchanged_resolve config tree]
    exact refl tree
  have saving : ∀ path ∈ config.snapshot, Ignores R path := fun path asked =>
    ignored path (List.mem_append_left _ (by simpa using asked))
  refine .bind (.result _) fun _ => .bind resolving fun model => ?_
  refine .bind_of_run (.result _) fun {targets _ _} rendered => ?_
  obtain ⟨proper, roots, _⟩ := targets_of_render (congrArg Prod.fst rendered)
  refine .bind (keeps_saveSnapshot saving model) fun _ => ?_
  cases dry : config.dryRun with
  | true => exact .pure _
  | false =>
      have exchange : Keeps R (do commit (← stageAll [] targets)) := by
        refine keeps_replace proper fun place mem => ignored place (List.mem_append_right _ ?_)
        rw [roots] at mem
        simpa [dry] using mem
      simp only [Bool.false_eq_true, if_false]
      rw [← bind_assoc]
      exact .bind exchange fun _ => .pure _

end Keeps

/-- What exists outside of some places is still there, and of the same kind. -/
def KeepsOutside (places : List Path) (a b : FileTree) : Prop :=
  ∀ m, (∀ place ∈ places, ¬ place.location <+: m) →
    ∀ kind, a.kindAt? m = some kind → b.kindAt? m = some kind

variable {places : List Path}

instance : Std.Refl (KeepsOutside places) := ⟨fun _ _ _ _ here => here⟩

instance : IsTrans FileTree (KeepsOutside places) where
  trans _ _ _ first next m outside kind here := next m outside kind (first m outside kind here)

theorem ignores_of_mem {place : Path} (mem : place ∈ places) :
    Ignores (KeepsOutside places) place where
  differs changed _ outside _ here := (changed.kindAt?_eq (outside place mem)).trans here
  grows _ grown m _ := grown.kept m

/-- What a run leaves of its input: the files outside of the places that it writes to, and, where
these are apart from the data directory, all that it has loaded. -/
structure KeepsInput (config : Config) (before after : FileTree) : Prop where
  file_eq : ∀ m contents, (∀ place ∈ config.written, ¬ place.location <+: m) →
    before.at? m = some (.file contents) → after.at? m = some (.file contents)
  data_eq : (∀ place ∈ config.written, config.dataDir.Apart place) →
    after.at? config.dataDir.location = before.at? config.dataDir.location
  resolve_eq : (∀ place ∈ config.written, config.dataDir.Apart place) → before.WellNamed →
    (execute (resolve config) after).1 = (execute (resolve config) before).1

/-- **A run keeps its input apart from what it writes.** -/
theorem run_keepsInput (config : Config) (fs : FileTree) :
    KeepsInput config fs (execute (run config) fs).2 where
  file_eq m contents outside file := by
    have kept : KeepsOutside config.written fs (execute (run config) fs).2 :=
      keeps_run (fun place mem => ignores_of_mem mem) fs
    exact kindAt?_eq_file_iff.mp (kept m outside _ (kindAt?_eq_file_iff.mpr file))
  data_eq apart := (keeps_run (fun place mem => ignores_of_apart (apart place mem)) fs).at?_eq
  resolve_eq apart named := by
    rcases run_goes config fs with ⟨e, failed, _⟩ | ⟨model, _, _, _, resolved, _⟩
    · rw [failed]
    · have spares := keeps_run (fun place mem => ignores_of_apart (apart place mem)) fs
      rw [readsAgain_resolve named spares model resolved, resolved]

/-- By default the data directory is apart from all that a run writes to. -/
example : ∀ place ∈ Config.saving.written, Config.saving.dataDir.Apart place := by decide +kernel

/-! ### What a run puts in the place of its input -/

/-- The snapshot that a run saves when it has read the given documents. -/
def snapshotFor (config : Config) (documents : List Loading.Document) : Except Error Snapshot := do
  let schema ← GameSchema.registry
  let _ ← Loading.catalogOf schema
  let model ← ResolvedModel.build schema (← Loading.load schema documents)
  let _ ← render config model
  Snapshot.ofModel model

theorem resolve_of_documents {fs : FileTree} {schema : Registry} {catalog : EntityType}
    {instances : InstanceRegistry} {files : List Path} {documents : List Loading.Document}
    (schema_eq : GameSchema.registry = .ok schema)
    (catalog_eq : Loading.catalogOf schema = .ok catalog)
    (listed : execute (Loading.dataFiles config.dataDir) fs = (.ok files, fs))
    (read : execute (files.mapM Loading.readDocument) fs = (.ok documents, fs))
    (loaded : Loading.load schema documents = .ok instances)
    (built : ResolvedModel.build schema instances = .ok model) :
    execute (resolve config) fs = (.ok model, fs) := by
  have result : ∀ {α : Type} {r : Except Error α} {x : α}, r = .ok x →
      execute (liftM r) fs = (.ok x, fs) := fun {_ _ _} h => h ▸ rfl
  refine execute_bind_eq_ok_iff.mpr ⟨schema, fs, result schema_eq, ?_⟩
  refine execute_bind_eq_ok_iff.mpr ⟨instances, fs, ?_, result built⟩
  refine execute_bind_eq_ok_iff.mpr ⟨catalog, fs, result catalog_eq, ?_⟩
  refine execute_bind_eq_ok_iff.mpr ⟨files, fs, listed, ?_⟩
  refine execute_bind_eq_ok_iff.mpr ⟨catalog, fs, result catalog_eq, ?_⟩
  exact execute_bind_eq_ok_iff.mpr ⟨documents, fs, read, result loaded⟩

/-- **A run saves the snapshot of what it has read**, whatever becomes of its exchange. -/
theorem readFile_of_run {fs saved : FileTree} {files : List Path} {documents : List Loading.Document}
    {s : Snapshot} {path : Path} (separates : config.Separates) (valid : config.validate = .ok ())
    (asked : config.snapshot = some path)
    (listed : execute (Loading.dataFiles config.dataDir) fs = (.ok files, fs))
    (read : execute (files.mapM Loading.readDocument) fs = (.ok documents, fs))
    (made : snapshotFor config documents = .ok s)
    (written : fs.writeFile path ⟨s.encode.toArray⟩ = .ok saved) :
    (execute (run config) fs).2.readFile path = .ok ⟨s.encode.toArray⟩ := by
  obtain ⟨schema, schema_eq, made⟩ := bind_eq_ok_iff.mp made
  obtain ⟨catalog, catalog_eq, made⟩ := bind_eq_ok_iff.mp made
  obtain ⟨instances, loaded, made⟩ := bind_eq_ok_iff.mp made
  obtain ⟨model, built, made⟩ := bind_eq_ok_iff.mp made
  obtain ⟨targets, rendered, made⟩ := bind_eq_ok_iff.mp made
  have resolved := resolve_of_documents schema_eq catalog_eq listed read loaded built
  have save : execute (saveSnapshot config model) fs = (.ok (), saved) := by
    unfold saveSnapshot
    rw [asked]
    dsimp only
    rw [execute_bind, execute_result, made]
    dsimp only
    rw [Snapshot.save, execute_attempt, perform_writeFile, written]
  rcases run_goes config fs with ⟨e, _, stops⟩ | ⟨model', targets', saved', report, resolved',
    rendered', save', run⟩
  · rcases stops with invalid | unresolved | ⟨model', resolved', refused | unsaved⟩
    · cases valid.symm.trans invalid
    · cases resolved.symm.trans unresolved
    · cases resolved.symm.trans resolved'
      cases rendered.symm.trans refused
    · cases resolved.symm.trans resolved'
      cases save.symm.trans unsaved
  · cases resolved.symm.trans resolved'
    obtain ⟨s', made', written'⟩ : ∃ s, Snapshot.ofModel model = .ok s ∧
        fs.writeFile path ⟨s.encode.toArray⟩ = .ok saved' := by simpa [Saved, asked] using save'
    cases made.symm.trans made'
    rw [run]
    cases config.dryRun with
    | true =>
        rw [if_pos rfl, readFile, lookup_of_writeFile written']
        rfl
    | false =>
        simp only [Bool.false_eq_true, if_false]
        cases final : execute (do commit (← stageAll [] targets')) saved' with
        | mk result last =>
        have kept := readFile_of_exchange separates rendered' asked written' final
        cases result <;> exact kept

/-- A data directory whose only document writes nothing. -/
def emptyData : FileTree :=
  .directory [("data", .directory [("a.json", .file "\x7b\x7d".toUTF8)])]

/-- The default configuration with a snapshot in the place of that document. -/
def overwriting : Config := { snapshot := some ⟨"data/a.json"⟩ }

/-- That document as it is read. -/
def emptyDocument : Loading.Document := { source := "data/a.json", content := .object [] }

theorem dataFiles_emptyData : execute (Loading.dataFiles overwriting.dataDir) emptyData =
    (.ok [⟨"data/a.json"⟩], emptyData) := by
  have found : (emptyData.lookup ⟨"data"⟩).map (filePaths ⟨"data"⟩) = .ok [⟨"data/a.json"⟩] := by
    decide +kernel
  have performed : perform (Files.filesBelow overwriting.dataDir) emptyData =
      (.ok [⟨"data/a.json"⟩], emptyData) := Prod.ext found rfl
  have kept : [Path.mk "data/a.json"].filter Loading.isDataFile = [⟨"data/a.json"⟩] := by
    decide +kernel
  rw [Loading.dataFiles, execute_bind, execute_attempt, performed]
  dsimp only
  rw [kept, List.mergeSort_singleton]
  rfl

/-- What is read from a document that writes nothing: a model whose files can all be written, and its
snapshot. -/
def rendersNothing : Except Error Bool := do
  let schema ← GameSchema.registry
  let _ ← Loading.catalogOf schema
  let model ← ResolvedModel.build schema (← Loading.load schema [emptyDocument])
  let classes ← CSharp.classPaths model
  let contracts ← Solidity.contractPaths model
  let _ ← Snapshot.ofModel model
  return OutputTree.Writable classes ∧ OutputTree.Writable contracts

theorem rendersNothing_eq : rendersNothing = .ok true := by decide +kernel

/-- Without instances everything is resolved and rendered. -/
theorem exists_snapshotFor : ∃ s, snapshotFor overwriting [emptyDocument] = .ok s := by
  obtain ⟨schema, schema_eq, run⟩ := bind_eq_ok_iff.mp rendersNothing_eq
  obtain ⟨catalog, catalog_eq, run⟩ := bind_eq_ok_iff.mp run
  obtain ⟨instances, loaded, run⟩ := bind_eq_ok_iff.mp run
  obtain ⟨model, built, run⟩ := bind_eq_ok_iff.mp run
  obtain ⟨classes, named, run⟩ := bind_eq_ok_iff.mp run
  obtain ⟨contracts, named', run⟩ := bind_eq_ok_iff.mp run
  obtain ⟨s, made, checked⟩ := bind_eq_ok_iff.mp run
  obtain ⟨writable, writable'⟩ := of_decide_eq_true (Except.ok.inj checked)
  obtain ⟨targets, rendered⟩ := exists_render overwriting named named' writable writable'
  exact ⟨s, bind_eq_ok_iff.mpr ⟨schema, schema_eq, bind_eq_ok_iff.mpr ⟨catalog, catalog_eq,
    bind_eq_ok_iff.mpr ⟨instances, loaded, bind_eq_ok_iff.mpr ⟨model, built,
    bind_eq_ok_iff.mpr ⟨targets, rendered, made⟩⟩⟩⟩⟩⟩

/-- A snapshot is no JSON document: it begins with the header of a map. -/
theorem head?_encode (s : Snapshot) : s.encode.head? = some 0x83 := by
  simp [Snapshot.encode, Snapshot.toMessagePack, MessagePack.record, MessagePack.encode,
    MessagePack.mapHeader]

/-- **An accepted configuration may overwrite its data**, for its check does not look at the data
directory. -/
theorem run_overwrites_data :
    overwriting.validate = .ok () ∧
      overwriting.dataDir.location <+: (Path.mk "data/a.json").location ∧
      emptyData.readFile ⟨"data/a.json"⟩ = .ok "\x7b\x7d".toUTF8 ∧
      (execute (run overwriting) emptyData).2.readFile ⟨"data/a.json"⟩ ≠
        .ok "\x7b\x7d".toUTF8 := by
  have valid : overwriting.validate = .ok () := by decide +kernel
  have separates : overwriting.Separates := ⟨by decide +kernel, by decide +kernel⟩
  refine ⟨valid, by decide +kernel, rfl, ?_⟩
  obtain ⟨s, made⟩ := exists_snapshotFor
  rw [readFile_of_run separates valid rfl dataFiles_emptyData rfl made rfl]
  intro same
  have bytes : s.encode = [0x7b, 0x7d] := congrArg (·.data.toList) (Except.ok.inj same)
  have first := head?_encode s
  rw [bytes] at first
  cases first

end Generation

end EntityForge
