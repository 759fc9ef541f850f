import DocQuery.Converter.Basic
import DocQuery.Entries

/-!
# The registry of converters

A registry keeps one converter for each type that was looked up. It starts with those of the scalar
types and of untyped values, arrays and maps; any other type gets its converter on the first look-up,
after that of its inner type. Converters are never replaced or dropped, and each has a serial number by
which two look-ups can tell that they found the same one.
-/

namespace DocQuery

structure Registered where
  serial : Nat
  converter : Converter
deriving DecidableEq, Inhabited

structure Registry where
  entries : Entries PropertyType Registered

namespace Registry

/-- The types that every registry starts with. -/
def builtIn : List PropertyType :=
  [.string, .integer, .float, .boolean, .symbol, .date, .time, .any, .array .any, .map .any]

def size (r : Registry) : Nat := r.entries.length

def get? (r : Registry) (type : PropertyType) : Option Registered := r.entries.get? type

def contains (r : Registry) (type : PropertyType) : Bool := (r.get? type).isSome

/-- Keeps a converter for a type that has none, under the next serial number. -/
def add (r : Registry) (type : PropertyType) (c : Converter) : Registered × Registry :=
  let new : Registered := ⟨r.size, c⟩
  (new, ⟨r.entries.put type new⟩)

/-- The registry that holds the built-in converters only. -/
def initial : Registry := builtIn.foldl (fun r type => (r.add type type.converter).2) ⟨[]⟩

/-- Looks up the converter of a type and makes it when there is none yet. -/
def lookUp : Registry → PropertyType → Registered × Registry
  | r, type =>
    match r.get? type with
    | some found => (found, r)
    | none =>
      match type with
      | .array inner =>
        let (found, r) := r.lookUp inner
        r.add type (.array found.converter)
      | .map inner =>
        let (found, r) := r.lookUp inner
        r.add type (.map found.converter)
      | other => r.add other (.named other.text)

example : initial.size = 10 ∧ (initial.lookUp (.array (.custom "Money"))).2.size = 12 := by
  decide +kernel

end Registry

end DocQuery
