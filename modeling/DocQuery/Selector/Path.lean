import DocQuery.StoreValue.Basic
import DocQuery.Text.Numeral

/-!
# Paths

A path names a value inside a document: field names and positions in arrays, separated by points.
-/

namespace DocQuery

/-- The value that one part of a path names inside a value: a field of a document, or the item at a
position of an array. -/
def StoreValue.child? (part : String) : StoreValue → Option StoreValue
  | .document fields => Entries.get? part fields
  | .array items => do items[← Text.index? part.toList]?
  | _ => none

/-- The value that the parts of a path lead to, one after the other. -/
def StoreValue.follow? : List String → StoreValue → Option StoreValue
  | [], v => some v
  | part :: rest, v => (v.child? part).bind (follow? rest)

def pathParts (path : String) : List String := (path.toList.splitOn '.').map String.ofList

/-- The value that a path leads to in a document, if there is one. -/
def Document.lookUp? (d : Document) (path : String) : Option StoreValue :=
  (StoreValue.document d).follow? (pathParts path)

example :
    Document.lookUp? [("a", .array [.int32 7, .document [("b", .null)]])] "a.1.b" matches some .null := by
  decide +kernel

end DocQuery
