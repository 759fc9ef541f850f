import DocQuery.Calendar.Time
import DocQuery.StoreValue.Basic

/-!
# Native values

The values of records and conditions, before they are stored. A value of the store that has no native
counterpart is carried along as it is.
-/

namespace DocQuery

inductive Value where
  | null
  | string (s : String)
  | integer (n : Int64)
  | float (x : Double)
  | boolean (b : Bool)
  | symbol (s : String)
  | date (d : Date)
  | time (t : Time)
  | array (items : List Value)
  /-- Named values in the order of their names. -/
  | map (entries : List (String × Value))
  /-- A store value without a native counterpart. -/
  | raw (v : StoreValue)

/-- The named values of a record, in the order of their names. -/
abbrev Attributes := Entries String Value

namespace Value

instance : Inhabited Value := ⟨null⟩

def isNull : Value → Bool
  | .null => true
  | _ => false

mutual

/-- Equality of native values. Numbers of different kinds are different, and so are texts and symbols;
floats are compared by value. -/
def same : Value → Value → Bool
  | .null, .null => true
  | .string a, .string b => a == b
  | .integer a, .integer b => a == b
  | .float a, .float b => a.same b
  | .boolean a, .boolean b => a == b
  | .symbol a, .symbol b => a == b
  | .date a, .date b => a = b
  | .time a, .time b => a = b
  | .array as, .array bs => sameItems as bs
  | .map as, .map bs => sameEntries as bs
  | .raw a, .raw b => a.same b
  | _, _ => false
termination_by structural v => v

def sameItems : List Value → List Value → Bool
  | [], [] => true
  | a :: as, b :: bs => same a b && sameItems as bs
  | _, _ => false
termination_by structural vs => vs

/-- Equality of named values, name by name. -/
def sameEntries : List (String × Value) → List (String × Value) → Bool
  | [], [] => true
  | (j, a) :: as, (k, b) :: bs => j == k && same a b && sameEntries as bs
  | _, _ => false
termination_by structural es => es

end

end Value

def Attributes.same (a b : Attributes) : Bool := Value.sameEntries a b

end DocQuery
