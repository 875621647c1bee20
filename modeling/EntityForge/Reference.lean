import EntityForge.Error

/-!
References as data files write them: `<type tag>/<instance id>`. A payload is a reference exactly if
it has one separator with text on both sides, and `display` writes it back.
-/

namespace EntityForge

/-- A reference that has not been looked up. -/
@[ext] structure Reference where
  tag : String
  id : String
deriving DecidableEq, Repr, Inhabited

namespace Reference

/-- The separator between tag and id. -/
def separator : Char := '/'

/-- The written form. -/
def display (r : Reference) : String := r.tag ++ separator.toString ++ r.id

/-- Reads a payload. -/
def parse (payload : String) : Except Error Reference :=
  let chars := payload.toList
  let tag := chars.takeWhile (· != separator)
  match chars.dropWhile (· != separator) with
  | _ :: id =>
    if tag ≠ [] ∧ id ≠ [] ∧ separator ∉ id then
      .ok { tag := String.ofList tag, id := String.ofList id }
    else fail (.malformedReference payload)
  | [] => fail (.malformedReference payload)

end Reference

end EntityForge
