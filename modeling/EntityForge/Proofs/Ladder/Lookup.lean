import EntityForge.Ladder.Table
import Mathlib.Data.List.Basic

/-!
What a look-up in a ladder gives, for any thresholds, in order or not.

A climb ends at the first level from its start whose threshold is out of reach (`Stops`). There is
exactly one such level, so climbs are compared by comparing what they pass: a climb with more
experience passes what one with less passed and can be resumed where that one ended, and a climb that
passes a later start ends where one from there ends. `levelFor_resumes` collects what follows for
look-ups, whatever the ladder.
-/

namespace EntityForge.LadderTable

variable {table : LadderTable} {experience level : Nat}

/-! ### The thresholds that a climb passes -/

theorem climb_le_length (thresholds : List Nat) : climb experience thresholds ≤ thresholds.length := by
  induction thresholds with
  | nil => exact Nat.le_refl 0
  | cons threshold rest ih =>
      rw [climb]
      split
      · exact Nat.succ_le_succ ih
      · exact Nat.zero_le _

theorem le_of_lt_climb {thresholds : List Nat} {n threshold : Nat}
    (passed : n < climb experience thresholds) (here : thresholds[n]? = some threshold) :
    threshold ≤ experience := by
  induction thresholds generalizing n with
  | nil => cases here
  | cons first rest ih =>
      rw [climb] at passed
      split at passed
      · rename_i reached
        cases n with
        | zero =>
            cases here
            exact reached
        | succ n => exact ih (Nat.lt_of_succ_lt_succ passed) here
      · exact absurd passed (Nat.not_lt_zero n)

/-- The threshold at which a climb ends is out of reach. -/
theorem lt_of_climb_eq {thresholds : List Nat} {threshold : Nat}
    (here : thresholds[climb experience thresholds]? = some threshold) : experience < threshold := by
  induction thresholds with
  | nil => cases here
  | cons first rest ih =>
      rw [climb] at here
      split at here
      · exact ih here
      · rename_i unreached
        cases here
        exact Nat.lt_of_not_le unreached

/-! ### Where a climb ends -/

/-- A climb from `start` ends at `level`: every threshold in between is reached, and the next one, if
there is one, is not. -/
structure Stops (table : LadderTable) (experience start level : Nat) : Prop where
  start_le : start ≤ level
  le_max : level ≤ table.maxLevel
  reached : ∀ n threshold, start ≤ n → n < level → table.thresholds[n]? = some threshold →
    threshold ≤ experience
  unreached : ∀ threshold, table.thresholds[level]? = some threshold → experience < threshold

theorem stops_climb {start : Nat} (inside : start ≤ table.maxLevel) :
    table.Stops experience start (start + climb experience (table.thresholds.drop start)) where
  start_le := Nat.le_add_right _ _
  le_max := by
    have bound : climb experience (table.thresholds.drop start) ≤ _ := climb_le_length _
    rw [List.length_drop] at bound
    unfold maxLevel at inside ⊢
    omega
  reached n threshold after before here := by
    obtain ⟨k, rfl⟩ := Nat.exists_eq_add_of_le after
    rw [← List.getElem?_drop] at here
    exact le_of_lt_climb (Nat.lt_of_add_lt_add_left before) here
  unreached threshold here := by
    rw [← List.getElem?_drop] at here
    exact lt_of_climb_eq here

/-- A look-up starts at the given level or, if that is beyond the ladder, at the highest one. -/
theorem stops_levelFor (table : LadderTable) (current experience : Nat) :
    table.Stops experience (min current table.maxLevel) (table.levelFor current experience).1 :=
  stops_climb (Nat.min_le_right _ _)

namespace Stops

variable {start other : Nat}

/-- Of two ends of one climb neither lies beyond the other: the threshold there would have been
passed by one climb and be out of reach of the other. -/
theorem le_of_stops (stops : table.Stops experience start level)
    (also : table.Stops experience start other) : level ≤ other := by
  by_contra beyond
  have inside : other < table.thresholds.length := by
    have bound := stops.le_max
    unfold maxLevel at bound
    omega
  have here := List.getElem?_eq_getElem inside
  have passed := stops.reached other _ also.start_le (Nat.lt_of_not_le beyond) here
  have missed := also.unreached _ here
  omega

theorem unique (stops : table.Stops experience start level)
    (also : table.Stops experience start other) : level = other :=
  Nat.le_antisymm (stops.le_of_stops also) (also.le_of_stops stops)

/-- A climb with more experience that goes on where an earlier one ended ends where it would have
ended from the start of the earlier one. -/
theorem resume {less more : Nat} (gain : less ≤ more) (first : table.Stops less start level)
    (rest : table.Stops more level other) : table.Stops more start other where
  start_le := Nat.le_trans first.start_le rest.start_le
  le_max := rest.le_max
  reached n threshold after before here := by
    rcases Nat.lt_or_ge n level with early | late
    · exact Nat.le_trans (first.reached n threshold after early here) gain
    · exact rest.reached n threshold late before here
  unreached := rest.unreached

/-- A climb that passes a level ends where a climb from that level ends. -/
theorem of_passed (stops : table.Stops experience start level) {later : Nat} (after : start ≤ later)
    (passed : later ≤ level) : table.Stops experience later level where
  start_le := passed
  le_max := stops.le_max
  reached n threshold from_ before here :=
    stops.reached n threshold (Nat.le_trans after from_) before here
  unreached := stops.unreached

end Stops

theorem levelFor_eq_of_stops {current : Nat}
    (stops : table.Stops experience (min current table.maxLevel) level) :
    (table.levelFor current experience).1 = level :=
  (stops_levelFor table current experience).unique stops

/-! ### What is left -/

/-- What is left depends on the level reached, not on where the look-up started. -/
theorem levelFor_snd (table : LadderTable) (current experience : Nat) :
    (table.levelFor current experience).2 =
      experience - if (table.levelFor current experience).1 = 0 then 0
        else table.thresholds.getD ((table.levelFor current experience).1 - 1) 0 :=
  rfl

theorem levelFor_snd_of_zero {current : Nat}
    (ground : (table.levelFor current experience).1 = 0) :
    (table.levelFor current experience).2 = experience := by
  rw [levelFor_snd, if_pos ground, Nat.sub_zero]

/-- Above the ground the table has a threshold for the level reached, and the experience counts from
it. -/
theorem exists_threshold_of_pos {current : Nat}
    (above : (table.levelFor current experience).1 ≠ 0) :
    ∃ threshold, table.thresholds[(table.levelFor current experience).1 - 1]? = some threshold ∧
      (table.levelFor current experience).2 = experience - threshold := by
  have bound := (stops_levelFor table current experience).le_max
  have inside : (table.levelFor current experience).1 - 1 < table.thresholds.length := by
    unfold maxLevel at bound
    omega
  have here := List.getElem?_eq_getElem inside
  refine ⟨_, here, ?_⟩
  rw [levelFor_snd, if_neg above, List.getD_eq_getElem?_getD, here, Option.getD_some]

theorem levelFor_congr {current other : Nat}
    (same : (table.levelFor current experience).1 = (table.levelFor other experience).1) :
    table.levelFor current experience = table.levelFor other experience := by
  refine Prod.ext same ?_
  rw [levelFor_snd, levelFor_snd, same]

/-! ### Two look-ups -/

/-- A look-up after a gain can start at the level that was found before it. -/
theorem levelFor_resume (table : LadderTable) (current : Nat) {less more : Nat} (gain : less ≤ more) :
    table.levelFor (table.levelFor current less).1 more = table.levelFor current more := by
  have first := stops_levelFor table current less
  have rest := stops_levelFor table (table.levelFor current less).1 more
  rw [Nat.min_eq_left first.le_max] at rest
  exact levelFor_congr (levelFor_eq_of_stops (first.resume gain rest)).symm

/-- More experience never leads to a lower level, since its climb can be resumed. -/
theorem levelFor_mono_experience (table : LadderTable) (current : Nat) {less more : Nat}
    (gain : less ≤ more) :
    (table.levelFor current less).1 ≤ (table.levelFor current more).1 := by
  have first := stops_levelFor table current less
  have rest := stops_levelFor table (table.levelFor current less).1 more
  rw [Nat.min_eq_left first.le_max, levelFor_resume table current gain] at rest
  exact rest.start_le

/-- A later start never leads to a lower level: the climb from the earlier one passes it or ends
before it. -/
theorem levelFor_mono_start (table : LadderTable) {current later : Nat} (order : current ≤ later)
    (experience : Nat) :
    (table.levelFor current experience).1 ≤ (table.levelFor later experience).1 := by
  have early := stops_levelFor table current experience
  have late := stops_levelFor table later experience
  rcases Nat.le_total (min later table.maxLevel) (table.levelFor current experience).1 with
    passed | before
  · have after : min current table.maxLevel ≤ min later table.maxLevel := by omega
    exact (early.of_passed after passed).le_of_stops late
  · exact Nat.le_trans before late.start_le

/-! ### Reading by position -/

/-- The level at which a climb from `level` ends, every threshold read at its position. There is no
answer when a position lies outside the table. -/
def climbFrom? (table : LadderTable) (experience level : Nat) : Option Nat :=
  if level < table.maxLevel then
    match table.thresholds[level]? with
    | none => none
    | some threshold =>
      if threshold ≤ experience then table.climbFrom? experience (level + 1) else some level
  else some level
termination_by table.maxLevel - level

/-- A look-up that reads every threshold at its position. -/
def levelFor? (table : LadderTable) (current experience : Nat) : Option (Nat × Nat) := do
  let level ← table.climbFrom? experience (min current table.maxLevel)
  if level = 0 then return (0, experience)
  let reached ← table.thresholds[level - 1]?
  return (level, experience - reached)

theorem climbFrom?_eq (table : LadderTable) (experience level : Nat) :
    table.climbFrom? experience level =
      some (level + climb experience (table.thresholds.drop level)) := by
  fun_induction climbFrom? table experience level with
  | case1 level inside outside =>
      rw [List.getElem?_eq_getElem (show level < table.thresholds.length from inside)] at outside
      cases outside
  | case2 level inside threshold here reached ih =>
      obtain ⟨inside, rfl⟩ := List.getElem?_eq_some_iff.mp here
      rw [ih, List.drop_eq_getElem_cons inside, climb, if_pos reached]
      congr 1
      omega
  | case3 level inside threshold here unreached =>
      obtain ⟨inside, rfl⟩ := List.getElem?_eq_some_iff.mp here
      rw [List.drop_eq_getElem_cons inside, climb, if_neg unreached, Nat.add_zero]
  | case4 level beyond =>
      rw [List.drop_eq_nil_of_le (Nat.le_of_not_lt beyond), climb, Nat.add_zero]

/-- No threshold is read outside the table. -/
theorem levelFor?_eq (table : LadderTable) (current experience : Nat) :
    table.levelFor? current experience = some (table.levelFor current experience) := by
  have climbed : table.climbFrom? experience (min current table.maxLevel) =
      some (table.levelFor current experience).1 := climbFrom?_eq _ _ _
  rw [levelFor?, climbed, Option.bind_eq_bind, Option.bind_some]
  by_cases ground : (table.levelFor current experience).1 = 0
  · rw [if_pos ground]
    exact congrArg some (Prod.ext ground.symm (levelFor_snd_of_zero ground).symm)
  · obtain ⟨threshold, here, left⟩ := exists_threshold_of_pos ground
    rw [if_neg ground, here]
    exact congrArg some (Prod.ext rfl left.symm)

/-- **Look-ups do not depend on the path.** For every table, in order or not, a look-up can be resumed
at any level that an earlier one with no more experience found; more experience or a later start never
leads to a lower level; the level stays between the start and the highest one; what is left is no more
than what was given; and every threshold is read inside the table. -/
theorem levelFor_resumes (table : LadderTable) {current later less more : Nat}
    (order : current ≤ later) (gain : less ≤ more) :
    table.levelFor (table.levelFor current less).1 more = table.levelFor current more ∧
      (table.levelFor current less).1 ≤ (table.levelFor current more).1 ∧
      (table.levelFor current less).1 ≤ (table.levelFor later less).1 ∧
      min current table.maxLevel ≤ (table.levelFor current less).1 ∧
      (table.levelFor current less).1 ≤ table.maxLevel ∧
      (table.levelFor current less).2 ≤ less ∧
      table.levelFor? current less = some (table.levelFor current less) := by
  have stops := stops_levelFor table current less
  refine ⟨levelFor_resume table current gain, levelFor_mono_experience table current gain,
    levelFor_mono_start table order less, stops.start_le, stops.le_max, ?_,
    levelFor?_eq table current less⟩
  exact Nat.sub_le _ _

theorem levelFor_resumes_unordered :
    let table : LadderTable := ⟨[10, 30, 20, 60]⟩
    (1 ≤ 7 ∧ 20 ≤ 60) ∧ table.levelFor 1 20 = (1, 10) ∧ table.levelFor 1 60 = (4, 0) ∧
      table.levelFor (table.levelFor 1 20).1 60 = table.levelFor 1 60 ∧
      (table.levelFor 1 20).1 ≤ (table.levelFor 7 20).1 ∧
      table.levelFor? 1 20 = some (table.levelFor 1 20) := by
  obtain ⟨resumed, _, later, _, _, _, inside⟩ :=
    levelFor_resumes ⟨[10, 30, 20, 60]⟩ (show 1 ≤ 7 by decide) (show 20 ≤ 60 by decide)
  exact ⟨⟨by decide, by decide⟩, by decide, by decide, resumed, later, inside⟩

end EntityForge.LadderTable
