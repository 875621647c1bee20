import EntityForge.Error
import EntityForge.Identity

/-!
Answers kept per type. An answer is computed on the first request and given again on later ones; a
failed computation leaves no answer behind.
-/

namespace EntityForge

/-- The kept answers, latest first. -/
structure Memo (α : Type) where
  answers : List (EntityId × α) := []
deriving DecidableEq, Repr, Inhabited

namespace Memo

variable {α : Type}

/-- The number of kept answers. -/
def size (memo : Memo α) : Nat := memo.answers.length

/-- The kept answer for a type. -/
def get? (memo : Memo α) (type : EntityId) : Option α := memo.answers.lookup type

/-- The answer for a type: the kept one, or that of `compute`, which is then kept. -/
def request (memo : Memo α) (compute : EntityId → Except Error α) (type : EntityId) :
    Memo α × Except Error α :=
  match memo.get? type with
  | some answer => (memo, .ok answer)
  | none =>
    match compute type with
    | .ok answer => ({ answers := (type, answer) :: memo.answers }, .ok answer)
    | .error e => (memo, .error e)

/-- Requests the answers for several types, up to the first failure. -/
def requestAll (memo : Memo α) (compute : EntityId → Except Error α) :
    List EntityId → Memo α × Except Error Unit
  | [] => (memo, .ok ())
  | type :: rest =>
    match memo.request compute type with
    | (memo, .ok _) => memo.requestAll compute rest
    | (memo, .error e) => (memo, .error e)

end Memo

end EntityForge
