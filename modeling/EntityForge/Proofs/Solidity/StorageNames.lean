import EntityForge.Proofs.Instances.Histories
import EntityForge.Proofs.Model.Resolved
import EntityForge.Proofs.Solidity.Spelling
import EntityForge.Proofs.Text.Plurals
import EntityForge.Solidity.Aggregates

/-!
Names of state variables. Contracts store models under the plurals of their identifiers. The
identifiers of types differ, as their tags do, but not all plurals: two types have one plural exactly
if their identifiers are a pair that `SharesPlural` lists (`plurals_distinct_iff`), and then one
contract declares a name twice (`plurals_repeat`).
-/

namespace EntityForge.Solidity

open Text

variable {schema : Registry} {a b : EntityId} {first second : EntityType}

theorem identifierPlural_derive (name : String) :
    (Names.derive name).identifierPlural = plural (Names.identifierName name) := by
  simp only [Names.derive]

theorem isUpper_eq_false_of_mem_identifierName {name : String} :
    ∀ c ∈ (Names.identifierName name).toList, c.isUpper = false :=
  isUpper_eq_false_of_mem_snakeCase

/-- The identifiers of declared types differ. -/
theorem identifierName_ne (consistent : schema.Consistent) (atFirst : schema.entity? a = some first)
    (atSecond : schema.entity? b = some second) (differ : a ≠ b) :
    Names.identifierName first.name ≠ Names.identifierName second.name := by
  intro same
  rw [← (consistent.fits _ _ atFirst).tag_eq, ← (consistent.fits _ _ atSecond).tag_eq] at same
  exact differ (consistent.eq_of_tag atFirst atSecond same)

/-- The identifiers are one of the listed pairs. -/
def SharePlural (names names' : Names) : Prop :=
  SharesPlural names.identifier.toList names'.identifier.toList ∨
    SharesPlural names'.identifier.toList names.identifier.toList

/-- **Identifiers of declared types differ, and plurals do unless the identifiers share one**, which no
two identifiers do that end in other letters than `e` and `y`. -/
theorem plurals_distinct_iff (reachable : schema.Reachable) (atFirst : schema.entity? a = some first)
    (atSecond : schema.entity? b = some second) (differ : a ≠ b) :
    (Names.derive first.name).identifier ≠ (Names.derive second.name).identifier ∧
      ((Names.derive first.name).identifierPlural ≠ (Names.derive second.name).identifierPlural ↔
        ¬ SharePlural (Names.derive first.name) (Names.derive second.name)) ∧
      ((∀ names ∈ [Names.derive first.name, Names.derive second.name],
        names.identifier.toList.getLast? ≠ some 'e' ∧ names.identifier.toList.getLast? ≠ some 'y') →
        (Names.derive first.name).identifierPlural ≠ (Names.derive second.name).identifierPlural) := by
  have apart := identifierName_ne reachable.consistent atFirst atSecond differ
  have distinct_iff : (Names.derive first.name).identifierPlural ≠
      (Names.derive second.name).identifierPlural ↔
        ¬ SharePlural (Names.derive first.name) (Names.derive second.name) := by
    rw [ne_eq, identifierPlural_derive, identifierPlural_derive,
      plural_eq_iff isUpper_eq_false_of_mem_identifierName isUpper_eq_false_of_mem_identifierName,
      or_iff_right apart]
    rfl
  refine ⟨apart, distinct_iff, fun ends => distinct_iff.mpr ?_⟩
  have firstEnds := ends (Names.derive first.name) List.mem_cons_self
  have secondEnds := ends (Names.derive second.name) (List.mem_cons_of_mem _ List.mem_cons_self)
  rintro (shares | shares)
  · exact shares.getLast?.elim secondEnds.1 secondEnds.2
  · exact shares.getLast?.elim firstEnds.1 firstEnds.2

/-- Two models with one data type. -/
def tools (name name' : String) : List Call := [
  .schema (.declare { name := "ToolData", root := some .dataCatalog }),
  .schema (.declare {
    name, annotations := { nft := true }, fields := [{ name := "data", type := .reference ⟨0⟩ }] }),
  .schema (.declare {
    name := name', annotations := { nft := true }
    fields := [{ name := "data", type := .reference ⟨0⟩ }] }),
  .close]

theorem plurals_distinct_iff_tools : ∃ first second,
    (History.run (tools "SawModel" "DrillModel")).schema.entity? ⟨1⟩ = some first ∧
      (History.run (tools "SawModel" "DrillModel")).schema.entity? ⟨2⟩ = some second ∧
      first.name = "SawModel" ∧ second.name = "DrillModel" ∧
      (Names.derive first.name).identifierPlural = "saw_models" ∧
      (Names.derive second.name).identifierPlural = "drill_models" ∧
      ¬ SharePlural (Names.derive first.name) (Names.derive second.name) := by
  have named : ((History.run (tools "SawModel" "DrillModel")).schema.entity? ⟨1⟩).map EntityType.name =
      some "SawModel" := by decide +kernel
  have named' : ((History.run (tools "SawModel" "DrillModel")).schema.entity? ⟨2⟩).map EntityType.name =
      some "DrillModel" := by decide +kernel
  obtain ⟨first, atFirst, name⟩ := Option.map_eq_some_iff.mp named
  obtain ⟨second, atSecond, name'⟩ := Option.map_eq_some_iff.mp named'
  have distinct := (plurals_distinct_iff (History.run_sound (tools "SawModel" "DrillModel")).reachable
    atFirst atSecond (by decide)).2.1
  refine ⟨first, second, atFirst, atSecond, name, name', ?_, ?_, distinct.mp ?_⟩
  · rw [name]
    decide +kernel
  · rw [name']
    decide +kernel
  · rw [name, name']
    decide +kernel

/-- The lines of a source that declare the variables of axes. -/
def declaresAxes (line : SourceLine) : Bool :=
  line = .plain "Ax public axes;" || line = .plain "Axe public axes;"

/-- The variables for axes in the game logic of what calls lead to. -/
def storedAxes (calls : List Call) : Except Error (List SourceLine) := do
  let m ← ResolvedModel.build (History.run calls).schema (History.run calls).instances
  let source ← gameLogic m (m.classification.ofCategory .model)
  return source.filter declaresAxes

/-- **A plural may be declared twice**: nothing refuses types whose identifiers share one. -/
theorem plurals_repeat : ∃ m source,
    ResolvedModel.build (History.run (tools "Ax" "Axe")).schema
        (History.run (tools "Ax" "Axe")).instances = .ok m ∧
      IsIdentifier "Ax".toList ∧ IsIdentifier "Axe".toList ∧
      m.schema.nameOf ⟨1⟩ = "Ax" ∧ m.schema.nameOf ⟨2⟩ = "Axe" ∧
      (Names.derive "Ax").identifierPlural = "axes" ∧ (Names.derive "Axe").identifierPlural = "axes" ∧
      gameLogic m (m.classification.ofCategory .model) = .ok source ∧
      source.filter declaresAxes = [.plain "Ax public axes;", .plain "Axe public axes;"] := by
  have computed : storedAxes (tools "Ax" "Axe") =
      .ok [.plain "Ax public axes;", .plain "Axe public axes;"] := by
    decide +kernel
  obtain ⟨m, built, run⟩ := bind_eq_ok_iff.mp computed
  obtain ⟨source, written, last⟩ := bind_eq_ok_iff.mp run
  have same := (ResolvedModel.of_build built).1
  refine ⟨m, source, built, by decide, by decide, by rw [same]; rfl, by rw [same]; rfl,
    by decide +kernel, by decide +kernel, written, Except.ok.inj last⟩

end EntityForge.Solidity
