import EntityForge.Instances.Registry
import EntityForge.Ladder.Table

/-!
The thresholds of a ladder instance: the `experience` of its `levels`, one after the other. Each
level must carry a number that is not negative.
-/

namespace EntityForge.LadderTable

/-- The threshold that a level record carries. -/
def threshold? (level : Value) : Option Nat := do
  let record ← level.record?
  let experience ← (← record.get? "experience").int?
  if 0 ≤ experience then some experience.toNat else none

/-- The thresholds of the levels of an instance, the first of which has the given index. -/
def thresholds? (context : Context) (index : Nat) : List Value → Except Error (List Nat)
  | [] => .ok []
  | level :: rest =>
    match threshold? level with
    | some threshold => do return threshold :: (← thresholds? context (index + 1) rest)
    | none =>
      inContext { context with field := some s!"levels[{index}].experience" }
        (fail (.valueMismatch "level with non-negative experience" level.kindName))

/-- The table of an instance of the type named `entity`. -/
def ofInstance (entity : String) (i : Instance) : Except Error LadderTable :=
  let context : Context := { entity := some entity, instanceId := some i.id }
  match i.record.get? "levels" with
  | none => inContext context (fail (.missingField entity "levels"))
  | some (.list levels) => do return ⟨← thresholds? context 0 levels⟩
  | some value =>
    inContext { context with field := some "levels" } (fail (.valueMismatch "list" value.kindName))

end EntityForge.LadderTable
