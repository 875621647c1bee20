import EntityForge.Proofs.Ladder.Lookup
import EntityForge.Proofs.Instances.Filled
import EntityForge.Proofs.Model.Resolved

/-!
When a ladder is cumulative: the level reached from the ground is the number of thresholds in reach,
and what is left counts from the largest of them. A climb stops at the first threshold out of reach,
so this is so exactly when the thresholds ascend (`cumulative_iff`).

A ladder instance is accepted when each of its levels carries a number that is not negative
(`lists_of_ofInstance`); whether the numbers ascend is not asked, so an accepted ladder need not be
cumulative (`accepted_descending`).
-/

namespace EntityForge

namespace LadderTable

variable {table : LadderTable} {experience : Nat}

/-! ### Counting thresholds -/

/-- The thresholds that an experience reaches. -/
def inReach (table : LadderTable) (experience : Nat) : List Nat :=
  table.thresholds.filter (· ≤ experience)

/-- The level reached from the ground counts the thresholds in reach, and what is left counts from the
largest of them. -/
def Cumulative (table : LadderTable) : Prop :=
  ∀ experience, table.levelFor 0 experience =
    ((table.inReach experience).length, experience - (table.inReach experience).max?.getD 0)

/-- Each threshold is at least the one before it. -/
def Ascending (table : LadderTable) : Prop := table.thresholds.Pairwise (· ≤ ·)

instance (table : LadderTable) : Decidable table.Ascending := by
  unfold Ascending
  infer_instance

/-- A climb passes every threshold in reach exactly if none of them comes after one out of reach. -/
theorem climb_eq_length_filter_iff (thresholds : List Nat) :
    climb experience thresholds = (thresholds.filter (· ≤ experience)).length ↔
      thresholds.Pairwise fun first later => later ≤ experience → first ≤ experience := by
  induction thresholds with
  | nil => simp [climb]
  | cons threshold rest ih =>
      rw [climb, List.pairwise_cons]
      split
      · rename_i reached
        rw [List.filter_cons_of_pos (by simpa using reached), List.length_cons, Nat.succ_inj, ih]
        simp [reached]
      · rename_i unreached
        rw [List.filter_cons_of_neg (by simpa using unreached), eq_comm, List.length_eq_zero_iff,
          List.filter_eq_nil_iff]
        constructor
        · intro none
          have none : ∀ later ∈ rest, ¬ later ≤ experience := by simpa using none
          refine ⟨fun later mem reached => absurd reached (none later mem), ?_⟩
          exact List.pairwise_of_forall_mem_list fun _ _ later mem reached =>
            absurd reached (none later mem)
        · rintro ⟨first, _⟩ later mem
          simpa using fun reached => unreached (first later mem reached)

theorem levelFor_zero_fst (table : LadderTable) (experience : Nat) :
    (table.levelFor 0 experience).1 = climb experience table.thresholds := by
  simp [levelFor]

theorem ascending_iff :
    table.Ascending ↔ ∀ experience, table.thresholds.Pairwise fun first later =>
      later ≤ experience → first ≤ experience := by
  constructor
  · intro ascending experience
    exact ascending.imp fun order reached => Nat.le_trans order reached
  · intro inOrder
    refine List.pairwise_iff_getElem.mpr fun i j insideI insideJ before => ?_
    exact List.pairwise_iff_getElem.mp (inOrder table.thresholds[j]) i j insideI insideJ before
      (Nat.le_refl _)

theorem Ascending.le (ascending : table.Ascending) {i j first later : Nat} (order : i ≤ j)
    (here : table.thresholds[i]? = some first) (there : table.thresholds[j]? = some later) :
    first ≤ later := by
  obtain ⟨insideI, rfl⟩ := List.getElem?_eq_some_iff.mp here
  obtain ⟨insideJ, rfl⟩ := List.getElem?_eq_some_iff.mp there
  rcases Nat.lt_or_eq_of_le order with before | rfl
  · exact List.pairwise_iff_getElem.mp ascending i j insideI insideJ before
  · exact Nat.le_refl _

/-- Where the thresholds ascend, the one of the level reached is the largest in reach. -/
theorem max?_inReach (ascending : table.Ascending) {level threshold : Nat}
    (stops : table.Stops experience 0 (level + 1))
    (here : table.thresholds[level]? = some threshold) :
    (table.inReach experience).max? = some threshold := by
  have reached := stops.reached level threshold (Nat.zero_le _) (Nat.lt_succ_self _) here
  refine List.max?_eq_some_iff.mpr ⟨?_, fun other mem => ?_⟩
  · exact List.mem_filter.mpr ⟨List.mem_of_getElem? here, decide_eq_true reached⟩
  · obtain ⟨listed, inReach⟩ := List.mem_filter.mp mem
    obtain ⟨place, there⟩ := List.mem_iff_getElem?.mp listed
    have early : place ≤ level := by
      -- The threshold after the level is out of reach, so all that come later are, too.
      by_contra late
      have inside := (List.getElem?_eq_some_iff.mp there).1
      have next := List.getElem?_eq_getElem (show level + 1 < table.thresholds.length by omega)
      have missed := stops.unreached _ next
      have order := ascending.le (Nat.lt_of_not_le late) next there
      exact absurd (of_decide_eq_true inReach) (Nat.not_le_of_lt (Nat.lt_of_lt_of_le missed order))
    exact ascending.le early there here

/-- **A ladder is cumulative exactly if its thresholds ascend.** -/
theorem cumulative_iff (table : LadderTable) : table.Cumulative ↔ table.Ascending := by
  rw [ascending_iff]
  constructor
  · intro cumulative experience
    rw [← climb_eq_length_filter_iff, ← levelFor_zero_fst, cumulative experience]
    rfl
  · intro inOrder experience
    have counted : (table.levelFor 0 experience).1 = (table.inReach experience).length := by
      rw [levelFor_zero_fst]
      exact (climb_eq_length_filter_iff _).mpr (inOrder experience)
    refine Prod.ext counted ?_
    by_cases ground : (table.levelFor 0 experience).1 = 0
    · rw [levelFor_snd_of_zero ground, List.length_eq_zero_iff.mp (counted.symm.trans ground)]
      rfl
    · obtain ⟨threshold, here, left⟩ := exists_threshold_of_pos ground
      have stops := stops_levelFor table 0 experience
      rw [Nat.zero_min, ← Nat.succ_pred_eq_of_ne_zero ground] at stops
      rw [left, max?_inReach (ascending_iff.mpr inOrder) stops here]
      rfl

/-! ### Accepted instances -/

/-- A level carries a threshold: it is a record with this number as its experience. -/
def Carries (level : Value) (threshold : Nat) : Prop :=
  ∃ record, level.record? = some record ∧ record.get? "experience" = some (.int threshold)

/-- The table lists what the levels of a record carry, in their order. -/
def Lists (table : LadderTable) (record : Record) : Prop :=
  ∃ levels, record.get? "levels" = some (.list levels) ∧
    List.Forall₂ Carries levels table.thresholds

theorem threshold?_eq_some_iff {level : Value} {threshold : Nat} :
    threshold? level = some threshold ↔ Carries level threshold := by
  unfold threshold? Carries
  simp only [Option.bind_eq_bind, Option.bind_eq_some_iff]
  refine exists_congr fun record => and_congr_right fun _ => ?_
  constructor
  · rintro ⟨value, set, experience, number, positive⟩
    split at positive
    · rename_i notNegative
      cases positive
      cases value with
      | int n =>
          cases number
          rw [set, Int.toNat_of_nonneg notNegative]
      | nil | string _ | list _ | map _ | ref _ | record _ _ => cases number
    · cases positive
  · intro set
    exact ⟨_, set, threshold, rfl, by simp⟩

theorem thresholds?_eq_ok_iff {context : Context} {index : Nat} {levels : List Value}
    {thresholds : List Nat} :
    thresholds? context index levels = .ok thresholds ↔
      List.Forall₂ Carries levels thresholds := by
  induction levels generalizing index thresholds with
  | nil =>
      rw [thresholds?, List.forall₂_nil_left_iff]
      exact ⟨fun same => (Except.ok.inj same).symm, fun same => congrArg Except.ok same.symm⟩
  | cons level rest ih =>
      rw [thresholds?, List.forall₂_cons_left_iff]
      split
      · rename_i threshold carried
        simp only [bind_eq_ok_iff, ih, ← threshold?_eq_some_iff, carried]
        constructor
        · rintro ⟨others, follow, last⟩
          cases last
          exact ⟨threshold, others, rfl, follow, rfl⟩
        · rintro ⟨_, others, ⟨⟩, follow, rfl⟩
          exact ⟨others, follow, rfl⟩
      · rename_i missing
        simp only [← threshold?_eq_some_iff, missing]
        constructor
        · intro failed
          cases failed
        · rintro ⟨_, _, ⟨⟩, _⟩

/-- **A ladder instance is accepted exactly if its levels carry thresholds**, and its table lists
them. -/
theorem ofInstance_eq_ok_iff {entity : String} {i : Instance} :
    ofInstance entity i = .ok table ↔ table.Lists i.record := by
  unfold ofInstance Lists
  dsimp only
  split
  · rename_i missing
    simp only [missing]
    constructor
    · intro failed
      cases failed
    · rintro ⟨_, ⟨⟩, _⟩
  · rename_i levels set
    simp only [bind_eq_ok_iff, thresholds?_eq_ok_iff, set]
    constructor
    · rintro ⟨thresholds, carried, last⟩
      cases last
      exact ⟨levels, rfl, carried⟩
    · rintro ⟨_, ⟨⟩, carried⟩
      exact ⟨table.thresholds, carried, rfl⟩
  · rename_i value noList set
    constructor
    · intro failed
      cases failed
    · rintro ⟨levels, same, _⟩
      rw [set] at same
      cases same
      exact (noList levels rfl).elim

end LadderTable

namespace ResolvedModel

variable {schema : Registry} {instances : InstanceRegistry} {m : ResolvedModel}

/-- The table that a model keeps under a key is that of an accepted instance with this key. -/
theorem exists_accepted_of_ladder? (filled : instances.Filled)
    (built : build schema instances = .ok m) {key : InstanceKey} {table : LadderTable}
    (kept : m.ladder? key = some table) :
    ∃ i, m.instances.instance? key = some i ∧ table.Lists i.record := by
  have listed : (key, table) ∈ m.ladders := by
    obtain ⟨before, after, split, _⟩ := List.lookup_eq_some_iff.mp kept
    simp [split]
  obtain ⟨_, _, classification, _, answers, _, _, _, _, _, walked, rfl⟩ := build_eq_ok_iff.mp built
  obtain ⟨entity, _, ⟨references, ladders⟩, computed, mem⟩ :=
    (mem_flatMap_of_mapM_eq_ok walked).mp listed
  obtain ⟨_, tables⟩ := instanceAnswers_eq_ok_iff.mp computed
  split at tables
  · obtain ⟨i, inside, rfl, accepted⟩ := (mem_keyed tables).mp mem
    exact ⟨i, (filled.coherent.mem_instancesOf inside).1,
      LadderTable.ofInstance_eq_ok_iff.mp accepted⟩
  · subst tables
    cases mem

end ResolvedModel

/-- **An accepted ladder is cumulative exactly if its thresholds ascend**, and so is every ladder of a
model. Its thresholds are what its levels carry, in their order. -/
theorem LadderTable.accepted_cumulative_iff (table : LadderTable) :
    (∀ entity i, LadderTable.ofInstance entity i = .ok table →
      table.Lists i.record ∧ (table.Cumulative ↔ table.Ascending)) ∧
    ∀ schema instances m, instances.Filled → ResolvedModel.build schema instances = .ok m →
      ∀ key, m.ladder? key = some table →
        ∃ i, m.instances.instance? key = some i ∧ table.Lists i.record ∧
          (table.Cumulative ↔ table.Ascending) := by
  constructor
  · intro entity i accepted
    exact ⟨LadderTable.ofInstance_eq_ok_iff.mp accepted, table.cumulative_iff⟩
  · intro schema instances m filled built key kept
    obtain ⟨i, found, lists⟩ := ResolvedModel.exists_accepted_of_ladder? filled built kept
    exact ⟨i, found, lists, table.cumulative_iff⟩

/-- A ladder type with one instance, whose levels carry the given numbers. -/
def rungs (experience : List Int) : List Call := [
  .schema (.declare {
    name := "HeroLevelLadderData", fields := [{ name := "experience", type := .scalar .int }] }),
  .schema (.declare {
    name := "HeroLadderData", fields := [{ name := "levels", type := .list (.embedded ⟨0⟩) }]
    annotations := { ladder := true }, root := some .dataCatalog }),
  .register "default" {
    type := ⟨1⟩
    fields := [("levels", .list (experience.map fun n => .record ⟨0⟩ [("experience", .int n)]))] },
  .close]

/-- The table that the model of a ladder type keeps for its first instance. -/
def keptTable (experience : List Int) : Except Error (Option LadderTable) :=
  (ResolvedModel.build (History.run (rungs experience)).schema
    (History.run (rungs experience)).instances).map (·.ladder? ⟨⟨1⟩, 0⟩)

theorem LadderTable.accepted_cumulative_iff_rungs :
    ∃ m i, ResolvedModel.build (History.run (rungs [100, 300])).schema
        (History.run (rungs [100, 300])).instances = .ok m ∧
      m.ladder? ⟨⟨1⟩, 0⟩ = some ⟨[100, 300]⟩ ∧ m.instances.instance? ⟨⟨1⟩, 0⟩ = some i ∧
      LadderTable.ofInstance "HeroLadderData" i = .ok ⟨[100, 300]⟩ ∧
      LadderTable.Cumulative ⟨[100, 300]⟩ := by
  have kept : keptTable [100, 300] = .ok (some ⟨[100, 300]⟩) := by decide +kernel
  obtain ⟨m, built, kept⟩ := map_eq_ok_iff.mp kept
  obtain ⟨every, ofModel⟩ := accepted_cumulative_iff ⟨[100, 300]⟩
  obtain ⟨i, found, lists, _⟩ := ofModel _ _ m (History.filled_run _) built _ kept
  have accepted : ofInstance "HeroLadderData" i = .ok ⟨[100, 300]⟩ :=
    ofInstance_eq_ok_iff.mpr lists
  exact ⟨m, i, built, kept, found, accepted, (every _ i accepted).2.mpr (by decide)⟩

/-- **An accepted ladder need not be cumulative**: one threshold is in reach, but the climb stops at
the first. -/
theorem LadderTable.accepted_descending :
    ∃ m i, ResolvedModel.build (History.run (rungs [300, 100])).schema
        (History.run (rungs [300, 100])).instances = .ok m ∧
      m.instances.instance? ⟨⟨1⟩, 0⟩ = some i ∧
      LadderTable.ofInstance "HeroLadderData" i = .ok ⟨[300, 100]⟩ ∧
      m.ladder? ⟨⟨1⟩, 0⟩ = some ⟨[300, 100]⟩ ∧
      LadderTable.levelFor ⟨[300, 100]⟩ 0 100 = (0, 100) ∧
      LadderTable.inReach ⟨[300, 100]⟩ 100 = [100] ∧ ¬ LadderTable.Cumulative ⟨[300, 100]⟩ := by
  have kept : keptTable [300, 100] = .ok (some ⟨[300, 100]⟩) := by decide +kernel
  obtain ⟨m, built, kept⟩ := map_eq_ok_iff.mp kept
  obtain ⟨i, found, lists⟩ :=
    ResolvedModel.exists_accepted_of_ladder? (History.filled_run _) built kept
  have accepted : ofInstance "HeroLadderData" i = .ok ⟨[300, 100]⟩ :=
    ofInstance_eq_ok_iff.mpr lists
  refine ⟨m, i, built, found, accepted, kept, by decide, by decide, ?_⟩
  rw [cumulative_iff]
  decide

end EntityForge
