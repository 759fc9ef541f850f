import DocQuery.Double.Rounding
import DocQuery.StoreValue.Basic

/-!
# The order of store values

Two orders are in use. The order of comparable values answers the ordering operators of a selector: it
relates values of one comparable type and numbers of all widths, and nothing else. The sort order
extends it to all values, and to missing ones, by ranking the types; values of one rank that cannot be
compared tie.
-/

namespace DocQuery.StoreValue

/-- The number a value stands for, as a double. -/
def number? : StoreValue → Option Double
  | .int32 n => some (Double.ofInt n.toInt)
  | .int64 n => some (Double.ofInt n.toInt)
  | .double x => some x
  | _ => none

/-- The order of two values of comparable types. Two integers are compared exactly, an integer and a
double as doubles. -/
def compare? : StoreValue → StoreValue → Option Ordering
  | .string a, .string b => some (compare a b)
  | .boolean a, .boolean b => some (compare a b)
  | .dateTime a, .dateTime b => some (compare a.toInt b.toInt)
  | .objectId a, .objectId b => some (compare a.place b.place)
  | .null, .null => some .eq
  | a, b =>
    match a.integer?, b.integer? with
    | some m, some n => some (compare m.toInt n.toInt)
    | _, _ =>
      match a.number?, b.number? with
      | some x, some y => x.compare? y
      | _, _ => none

/-- Equality that also holds between numbers of different widths. -/
def equals (a b : StoreValue) : Bool := a.same b || a.compare? b == some .eq

/-- The rank of a value's type in the sort order; a missing value ranks with null. -/
def rank : Option StoreValue → Nat
  | none | some .null | some .undefined => 0
  | some (.int32 _) | some (.int64 _) | some (.double _) => 1
  | some (.string _) | some (.symbol _) => 2
  | some (.document _) => 3
  | some (.array _) => 4
  | some (.objectId _) => 5
  | some (.boolean _) => 6
  | some (.dateTime _) => 7
  | some _ => 8

/-- The order of two values of one rank. -/
def tieBreak : Option StoreValue → Option StoreValue → Ordering
  | some a, some b => (a.compare? b).getD .eq
  | _, _ => .eq

/-- The sort order of two values, either of which may be missing. -/
def sortOrder (a b : Option StoreValue) : Ordering := (compare (rank a) (rank b)).then (tieBreak a b)

example : compare? (.int32 2) (.double (Double.ofRatio false 5 2)) = some .lt := by decide +kernel

end DocQuery.StoreValue
