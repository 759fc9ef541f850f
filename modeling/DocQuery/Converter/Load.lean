import DocQuery.Calendar.TimeText
import DocQuery.Converter.Basic
import DocQuery.Converter.Coercion
import DocQuery.Value.Generic

/-!
# Reading values back

Reading never fails either: a stored value that the property's type does not expect comes back through
the generic conversion. Unlike storing, reading a text does not trim it.
-/

namespace DocQuery.Converter

def loadString : StoreValue → Value
  | .string s | .symbol s => .string s
  | .int32 n => .string (int64Text n.toInt64)
  | .int64 n => .string (int64Text n)
  | .double x => .string x.text
  | .boolean b => .string (booleanText b)
  | v => Value.ofStored v

def loadInteger : StoreValue → Value
  | .int32 n => .integer n.toInt64
  | .int64 n => .integer n
  | .double x => .integer x.truncate
  | v => Value.ofStored v

def loadFloat : StoreValue → Value
  | .double x => .float x
  | .int32 n => .float (Double.ofInt n.toInt)
  | .int64 n => .float (Double.ofInt n.toInt)
  | v => Value.ofStored v

/-- Reads a stored value of a truth property; what has no truth stays as it is. -/
def loadBoolean (v : StoreValue) : Value :=
  ((truth? (Value.ofStored v)).map Value.boolean).getD (Value.ofStored v)

def loadSymbol : StoreValue → Value
  | .string s | .symbol s => .symbol s
  | v => Value.ofStored v

def loadDate : StoreValue → Value
  | .string s =>
    match Date.ofText? s.toList with
    | some d => .date d
    | none => .string s
  | .dateTime n => .date (Time.ofMillis n).date
  | v => Value.ofStored v

def loadTime : StoreValue → Value
  | .dateTime n => .time (Time.ofMillis n)
  | .string s =>
    match Time.ofText? s.toList with
    | some t => .time t
    | none => .string s
  | v => Value.ofStored v

def fromStore : Converter → StoreValue → Value
  | .string, v => loadString v
  | .integer, v => loadInteger v
  | .float, v => loadFloat v
  | .boolean, v => loadBoolean v
  | .symbol, v => loadSymbol v
  | .date, v => loadDate v
  | .time, v => loadTime v
  | .generic, v => Value.ofStored v
  | .named _, v => Value.ofStored v
  | .array inner, .array items => .array (items.map fun item => inner.fromStore item)
  | .array _, v => Value.ofStored v
  | .map inner, .document fields =>
    .map (Entries.sorted (Entries.mapValues (fun v => inner.fromStore v) fields))
  | .map _, v => Value.ofStored v

end DocQuery.Converter
