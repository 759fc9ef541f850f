import DocQuery.Double.Basic
import DocQuery.Entries
import DocQuery.ObjectId

/-!
# Store values

The values a document store keeps. Integers of 32 and 64 bits and doubles are different values even
when they stand for the same number. A document is a list of fields with distinct names; the order of
its fields is kept, but two documents are equal whatever the order of theirs. Database pointers, which are no
longer written, are left out.
-/

namespace DocQuery

inductive StoreValue where
  | null
  | undefined
  | boolean (b : Bool)
  | int32 (n : Int32)
  | int64 (n : Int64)
  | double (x : Double)
  | string (s : String)
  | symbol (s : String)
  /-- A point in time, in milliseconds from the start of 1970-01-01. -/
  | dateTime (millis : Int64)
  | objectId (id : ObjectId)
  | array (items : List StoreValue)
  | document (fields : List (String × StoreValue))
  | regex (pattern options : String)
  | javascript (code : String)
  | scopedJavascript (code : String) (scope : List (String × StoreValue))
  | timestamp (time increment : UInt32)
  | binary (subtype : UInt8) (bytes : List UInt8)
  | decimal128 (bits : BitVec 128)
  | minKey
  | maxKey

/-- A document: named fields in order. -/
abbrev Document := Entries String StoreValue

/-- The name of the field that identifies a document. -/
def identityField : String := "_id"

namespace StoreValue

instance : Inhabited StoreValue := ⟨null⟩

mutual

/-- Equality of store values. Doubles are compared by value, so that the two zeros are equal and what is
not a number equals nothing. -/
def same : StoreValue → StoreValue → Bool
  | .null, .null => true
  | .undefined, .undefined => true
  | .boolean a, .boolean b => a == b
  | .int32 a, .int32 b => a == b
  | .int64 a, .int64 b => a == b
  | .double a, .double b => a.same b
  | .string a, .string b => a == b
  | .symbol a, .symbol b => a == b
  | .dateTime a, .dateTime b => a == b
  | .objectId a, .objectId b => a == b
  | .array as, .array bs => sameItems as bs
  | .document as, .document bs => as.length == bs.length && sameFields as bs
  | .regex p o, .regex p' o' => p == p' && o == o'
  | .javascript a, .javascript b => a == b
  | .scopedJavascript a s, .scopedJavascript b s' => a == b && s.length == s'.length && sameFields s s'
  | .timestamp t i, .timestamp t' i' => t == t' && i == i'
  | .binary t b, .binary t' b' => t == t' && b == b'
  | .decimal128 a, .decimal128 b => a == b
  | .minKey, .minKey => true
  | .maxKey, .maxKey => true
  | _, _ => false
termination_by structural v => v

def sameItems : List StoreValue → List StoreValue → Bool
  | [], [] => true
  | a :: as, b :: bs => same a b && sameItems as bs
  | _, _ => false
termination_by structural vs => vs

/-- Whether every field of the first list is a field of the second, with an equal value. -/
def sameFields : List (String × StoreValue) → List (String × StoreValue) → Bool
  | [], _ => true
  | (k, v) :: rest, others => others.any (fun e => e.1 == k && same v e.2) && sameFields rest others
termination_by structural fields => fields

end

def items? : StoreValue → Option (List StoreValue)
  | .array items => some items
  | _ => none

/-- The number an integer of either width stands for. -/
def integer? : StoreValue → Option Int64
  | .int32 n => some n.toInt64
  | .int64 n => some n
  | _ => none

end StoreValue

/-- Equality of documents, whatever the order of their fields. -/
def Document.same (d e : Document) : Bool := (StoreValue.document d).same (.document e)

end DocQuery
