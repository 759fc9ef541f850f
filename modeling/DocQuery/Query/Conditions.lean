import DocQuery.Query.Operator
import DocQuery.Value.Basic

/-!
# Conditions

A set of conditions gives values to subjects, all of which have to hold. The subject of a condition is a
plain field, which has to equal the value, or an operator. A plain field and each of the operators on it
are different subjects. Giving a value to a subject that has one replaces it in place.
-/

namespace DocQuery

inductive Subject where
  | field (name : String)
  | operator (op : Operator)
deriving DecidableEq, Inhabited

/-- The logical field that a condition applies to. -/
def Subject.fieldName : Subject → String
  | field name => name
  | operator op => op.field

/-- A set of conditions in order. -/
abbrev Conditions := Entries Subject Value

namespace Conditions

/-- Adds the conditions of a second set, which win over those of the first on equal subjects. -/
def merge (cs ds : Conditions) : Conditions := cs.putAll ds

/-- The logical fields that the conditions apply to, in order. -/
def fieldNames (cs : Conditions) : List String := cs.map fun c => c.1.fieldName

/-- Equality of sets of conditions, in order and with equality of native values. -/
def same : Conditions → Conditions → Bool
  | [], [] => true
  | (s, v) :: cs, (t, w) :: ds => s = t && v.same w && same cs ds
  | _, _ => false

end Conditions

end DocQuery
