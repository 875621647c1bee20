import EntityForge.FieldType
import EntityForge.Reference
import EntityForge.SortedMap

/-!
Field values and records. Maps keep their entries in key order and records their fields in name
order, so that equal contents are equal values. The comparison orders the kinds of values as they
are declared here and is lexicographic within a kind; `compare_eq_iff` says that only equal values
compare equal, which also decides equality.
-/

namespace EntityForge

/-- The value of a field. -/
inductive Value where
  /-- An absent value. -/
  | nil
  | int (n : Int)
  | string (text : String)
  | list (items : List Value)
  /-- Entries in ascending key order. -/
  | map (entries : List (Value × Value))
  | ref (target : Reference)
  /-- A value of an embedded type; fields in ascending name order. -/
  | record (type : EntityId) (fields : List (String × Value))
deriving Repr, Inhabited

namespace Value

/-- The short name of a value's kind, for messages. -/
def kindName : Value → String
  | nil => "nil"
  | int _ => "int"
  | string _ => "string"
  | list _ => "list"
  | map _ => "map"
  | ref _ => "reference"
  | record _ _ => "record"

/-- The position of a value's kind in the order of kinds. -/
def kindRank : Value → Nat
  | nil => 0
  | int _ => 1
  | string _ => 2
  | list _ => 3
  | map _ => 4
  | ref _ => 5
  | record _ _ => 6

mutual

/-- The order of values: by kind, then by contents. -/
def compare : Value → Value → Ordering
  | int a, int b => Ord.compare a b
  | string a, string b => Ord.compare a b
  | list a, list b => compareItems a b
  | map a, map b => compareEntries a b
  | ref a, ref b => (Ord.compare a.tag b.tag).then (Ord.compare a.id b.id)
  | record s a, record t b => (Ord.compare s.index t.index).then (compareFields a b)
  | a, b => Ord.compare a.kindRank b.kindRank
termination_by structural a => a

/-- Lists are ordered lexicographically. -/
def compareItems : List Value → List Value → Ordering
  | [], [] => .eq
  | [], _ :: _ => .lt
  | _ :: _, [] => .gt
  | a :: as, b :: bs => (compare a b).then (compareItems as bs)
termination_by structural a => a

/-- Entries are ordered lexicographically, each by its key and then by its value. -/
def compareEntries : List (Value × Value) → List (Value × Value) → Ordering
  | [], [] => .eq
  | [], _ :: _ => .lt
  | _ :: _, [] => .gt
  | (k, a) :: as, (l, b) :: bs => ((compare k l).then (compare a b)).then (compareEntries as bs)
termination_by structural a => a

/-- Fields are ordered lexicographically, each by its name and then by its value. -/
def compareFields : List (String × Value) → List (String × Value) → Ordering
  | [], [] => .eq
  | [], _ :: _ => .lt
  | _ :: _, [] => .gt
  | (k, a) :: as, (l, b) :: bs => ((Ord.compare k l).then (compare a b)).then (compareFields as bs)
termination_by structural a => a

end

mutual

/-- Only equal values compare equal. -/
theorem compare_eq_iff : ∀ a b : Value, compare a b = .eq ↔ a = b
  | nil, b => by cases b <;> simp [compare, kindRank]
  | int _, b => by cases b <;> simp [compare, kindRank]
  | string _, b => by cases b <;> simp [compare, kindRank]
  | ref _, b => by cases b <;> simp [compare, kindRank, Ordering.then_eq_eq, Reference.ext_iff]
  | list as, b => by cases b <;> simp [compare, kindRank, compareItems_eq_iff as]
  | map as, b => by cases b <;> simp [compare, kindRank, compareEntries_eq_iff as]
  | record _ as, b => by
    cases b <;>
      simp [compare, kindRank, compareFields_eq_iff as, Ordering.then_eq_eq, EntityId.ext_iff]
termination_by structural a => a

theorem compareItems_eq_iff : ∀ as bs : List Value, compareItems as bs = .eq ↔ as = bs
  | [], bs => by cases bs <;> simp [compareItems]
  | a :: as, bs => by
    cases bs <;>
      simp [compareItems, Ordering.then_eq_eq, compare_eq_iff a, compareItems_eq_iff as]
termination_by structural as => as

theorem compareEntries_eq_iff :
    ∀ as bs : List (Value × Value), compareEntries as bs = .eq ↔ as = bs
  | [], bs => by cases bs <;> simp [compareEntries]
  | (k, a) :: as, bs => by
    cases bs <;>
      simp [compareEntries, Ordering.then_eq_eq, compare_eq_iff k, compare_eq_iff a,
        compareEntries_eq_iff as, Prod.ext_iff]
termination_by structural as => as

theorem compareFields_eq_iff :
    ∀ as bs : List (String × Value), compareFields as bs = .eq ↔ as = bs
  | [], bs => by cases bs <;> simp [compareFields]
  | (_, a) :: as, bs => by
    cases bs <;>
      simp [compareFields, Ordering.then_eq_eq, compare_eq_iff a, compareFields_eq_iff as,
        Prod.ext_iff]
termination_by structural as => as

end

instance : DecidableEq Value := fun a b => decidable_of_iff _ (compare_eq_iff a b)

instance : Ord Value := ⟨compare⟩

/-- Nil is the absent value. -/
def isNil : Value → Bool
  | nil => true
  | _ => false

/-- The number of an integer value. -/
def int? : Value → Option Int
  | int n => some n
  | _ => none

/-- The text of a string value. -/
def string? : Value → Option String
  | string text => some text
  | _ => none

/-- The items of a list value. -/
def items? : Value → Option (List Value)
  | list items => some items
  | _ => none

/-- The entries of a map value. -/
def entries? : Value → Option (List (Value × Value))
  | map entries => some entries
  | _ => none

/-- The target of a reference value. -/
def ref? : Value → Option Reference
  | ref target => some target
  | _ => none

/-- The map value of a list of bindings; of two bindings of one key the later holds. -/
def mapOf (bindings : List (Value × Value)) : Value := map (SortedMap.ofList compare bindings)

end Value

/-- The field values of an instance or of an embedded value; fields in ascending name order. -/
structure Record where
  type : EntityId
  fields : List (String × Value) := []
deriving DecidableEq, Repr, Inhabited

namespace Record

/-- Sets one field. -/
def set (record : Record) (name : String) (value : Value) : Record :=
  { record with fields := SortedMap.insert Ord.compare name value record.fields }

/-- The value of a field, if it is set. -/
def get? (record : Record) (name : String) : Option Value :=
  SortedMap.find? Ord.compare name record.fields

/-- The record as a value. -/
def toValue (record : Record) : Value := .record record.type record.fields

end Record

/-- The record of a record value. -/
def Value.record? : Value → Option Record
  | .record type fields => some { type, fields }
  | _ => none

end EntityForge
