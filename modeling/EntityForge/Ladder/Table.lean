/-!
Experience ladders. A ladder lists the total experience at which each level is reached; a look-up
climbs from a given level while the next threshold is reached and never leaves the table.
-/

namespace EntityForge

/-- The thresholds of one ladder, in level order. -/
structure LadderTable where
  thresholds : List Nat
deriving DecidableEq, Repr

namespace LadderTable

/-- The highest level. -/
def maxLevel (table : LadderTable) : Nat := table.thresholds.length

/-- The number of leading thresholds that `experience` reaches. -/
def climb (experience : Nat) : List Nat → Nat
  | [] => 0
  | threshold :: rest => if threshold ≤ experience then climb experience rest + 1 else 0

/-- The level reached from `current`, and the experience beyond that level's threshold. -/
def levelFor (table : LadderTable) (current experience : Nat) : Nat × Nat :=
  let start := min current table.maxLevel
  let level := start + climb experience (table.thresholds.drop start)
  let reached := if level = 0 then 0 else table.thresholds.getD (level - 1) 0
  (level, experience - reached)

end LadderTable

end EntityForge
