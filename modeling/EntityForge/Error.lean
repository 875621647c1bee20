import EntityForge.Text.Quoted

/-!
What can go wrong, and where. A cause says what; a context says where, as far as it is known. Errors
gain context on their way out, and what a deeper layer has filled in stays: `Context.orElse` never
replaces a piece.
-/

namespace EntityForge

/-- The cause of a failure. -/
inductive Cause where
  /-- A reference payload that is not of the form `<type>/<id>`. -/
  | malformedReference (payload : String)
  /-- A reference to an instance that does not exist, or that is looked up too early (`pending`). -/
  | unresolvedReference (tag id : String) (pending : Bool)
  /-- A lookup of an instance that does not exist. -/
  | unknownInstance (tag id : String)
  /-- A type that embeds itself; the path starts and ends with the same type. -/
  | cyclicDependency (path : List String)
  | duplicateInstance (entity id : String)
  | unknownEntityType (name : String)
  | duplicateEntityType (name : String)
  | invalidSchema (reason : String)
  | missingField (entity field : String)
  | valueMismatch (expected found : String)
  /-- A reference whose tag is not that of the type its field declares. -/
  | referenceTargetMismatch (expected found : String)
  | io (reason : String)
  | parse (reason : String)
  | serialization (reason : String)
  | invalidConfig (reason : String)
  | internal (reason : String)
deriving DecidableEq, Repr

/-- Where a failure occurred. -/
structure Context where
  entity : Option String := none
  instanceId : Option String := none
  field : Option String := none
  source : Option String := none
deriving DecidableEq, Repr, Inhabited

/-- A cause with the place where it arose. -/
structure Error where
  cause : Cause
  context : Option Context := none
deriving DecidableEq, Repr

namespace Cause

/-- The text of a cause. -/
def message : Cause → String
  | malformedReference payload =>
    "malformed reference: " ++ Text.quoted payload ++ " (expected \"<type>/<id>\")"
  | unresolvedReference tag id pending =>
    "unresolved reference: " ++ tag ++ "/" ++ id ++
      (if pending then " (instance registry not sealed)" else "")
  | unknownInstance tag id => "unknown instance: " ++ tag ++ "/" ++ id
  | cyclicDependency path => "cyclic dependency: " ++ " -> ".intercalate path
  | duplicateInstance entity id =>
    "duplicate instance id " ++ Text.quoted id ++ " for entity type " ++ entity
  | unknownEntityType name => "unknown entity type: " ++ name
  | duplicateEntityType name => "duplicate entity type: " ++ name
  | invalidSchema reason => "invalid schema: " ++ reason
  | missingField entity field => "missing field " ++ field ++ " on " ++ entity
  | valueMismatch expected found => "value mismatch: expected " ++ expected ++ ", found " ++ found
  | referenceTargetMismatch expected found =>
    "reference target mismatch: field expects " ++ expected ++ ", reference names " ++ found
  | io reason => "I/O error: " ++ reason
  | parse reason => "parse error: " ++ reason
  | serialization reason => "serialization error: " ++ reason
  | invalidConfig reason => "invalid configuration: " ++ reason
  | internal reason => "internal error: " ++ reason

end Cause

namespace Context

/-- Fills the missing pieces of `inner` from `outer`. -/
def orElse (inner outer : Context) : Context where
  entity := inner.entity.or outer.entity
  instanceId := inner.instanceId.or outer.instanceId
  field := inner.field.or outer.field
  source := inner.source.or outer.source

/-- The text of a context: the known pieces, from the type to the source. -/
def message (context : Context) : String :=
  ", ".intercalate <|
    (context.entity.map ("entity " ++ ·)).toList ++
    (context.instanceId.map ("instance " ++ Text.quoted ·)).toList ++
    (context.field.map ("field " ++ ·)).toList ++
    (context.source.map ("in " ++ ·)).toList

end Context

namespace Error

/-- Adds context to an error; pieces that it already has are kept. -/
def within (error : Error) (context : Context) : Error :=
  { error with context := some (match error.context with
      | some inner => inner.orElse context
      | none => context) }

/-- The text of an error: its cause, and its context in parentheses. -/
def message (error : Error) : String :=
  error.cause.message ++ (match error.context with
    | some context => " (" ++ context.message ++ ")"
    | none => "")

end Error

/-- Fails with a cause whose place is not known yet. -/
def fail {α : Type} (cause : Cause) : Except Error α := .error { cause }

/-- Adds context to the error of a failed computation. -/
def inContext {α : Type} (context : Context) (result : Except Error α) : Except Error α :=
  result.mapError (·.within context)

/-- A test of a state that is changed in place; the test itself changes nothing. -/
def test {σ α : Type} (check : σ → Except Error α) : EStateM Error σ α := fun s =>
  match check s with
  | .ok a => .ok a s
  | .error e => .error e s

end EntityForge
