import DocQuery.Calendar.DateText
import DocQuery.Value.Basic

/-!
# Generic conversion

Values without a declared type are stored by their own kind: symbols become texts and dates become
their text, all else keeps its meaning. Reading back, both widths of integers become integers, and the
kinds of the store without a native counterpart stay as they are.
-/

namespace DocQuery.Value

mutual

/-- The store value of a native value. -/
def toStored : Value → StoreValue
  | .null => .null
  | .string s => .string s
  | .integer n => .int64 n
  | .float x => .double x
  | .boolean b => .boolean b
  | .symbol s => .string s
  | .date d => .string d.text
  | .time t => .dateTime t.toMillis
  | .array items => .array (toStoredItems items)
  | .map entries => .document (toStoredEntries entries)
  | .raw v => v
termination_by structural v => v

def toStoredItems : List Value → List StoreValue
  | [] => []
  | v :: rest => toStored v :: toStoredItems rest
termination_by structural vs => vs

def toStoredEntries : List (String × Value) → List (String × StoreValue)
  | [] => []
  | (k, v) :: rest => (k, toStored v) :: toStoredEntries rest
termination_by structural es => es

end

mutual

/-- The native value of a store value. -/
def ofStored : StoreValue → Value
  | .null => .null
  | .undefined => .null
  | .string s => .string s
  | .symbol s => .symbol s
  | .int32 n => .integer n.toInt64
  | .int64 n => .integer n
  | .double x => .float x
  | .boolean b => .boolean b
  | .dateTime n => .time (Time.ofMillis n)
  | .array items => .array (ofStoredItems items)
  | .document fields => .map (Entries.sorted (ofStoredFields fields))
  | v => .raw v
termination_by structural v => v

def ofStoredItems : List StoreValue → List Value
  | [] => []
  | v :: rest => ofStored v :: ofStoredItems rest
termination_by structural vs => vs

def ofStoredFields : List (String × StoreValue) → List (String × Value)
  | [] => []
  | (k, v) :: rest => (k, ofStored v) :: ofStoredFields rest
termination_by structural fields => fields

end

@[simp] theorem toStoredItems_eq_map (items : List Value) : toStoredItems items = items.map toStored := by
  induction items with
  | nil => rfl
  | cons v rest ih => simp [toStoredItems, ih]

@[simp] theorem toStoredEntries_eq_mapValues (entries : List (String × Value)) :
    toStoredEntries entries = Entries.mapValues toStored entries := by
  induction entries with
  | nil => rfl
  | cons e rest ih => simp [toStoredEntries, Entries.mapValues, ih]

@[simp] theorem ofStoredItems_eq_map (items : List StoreValue) : ofStoredItems items = items.map ofStored := by
  induction items with
  | nil => rfl
  | cons v rest ih => simp [ofStoredItems, ih]

@[simp] theorem ofStoredFields_eq_mapValues (fields : List (String × StoreValue)) :
    ofStoredFields fields = Entries.mapValues ofStored fields := by
  induction fields with
  | nil => rfl
  | cons e rest ih => simp [ofStoredFields, Entries.mapValues, ih]

end DocQuery.Value
