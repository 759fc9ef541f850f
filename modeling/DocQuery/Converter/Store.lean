import DocQuery.Calendar.TimeText
import DocQuery.Converter.Basic
import DocQuery.Converter.Coercion
import DocQuery.Value.Generic

/-!
# Storing values

Storing never fails. A value of another shape than the property's type is coerced where that makes sense
and goes through the generic conversion otherwise. A text given for a date or a time is kept as it is
when it does not read as one, and a text given for a number becomes null.
-/

namespace DocQuery.Converter

open Text

/-- Stores a value of a text property: scalars become their text. -/
def storeString : Value → StoreValue
  | .null => .null
  | .string s | .symbol s => .string s
  | .integer n => .string (int64Text n)
  | .float x => .string x.text
  | .boolean b => .string (booleanText b)
  | .date d => .string d.text
  | .time t => .string t.text
  | v => v.toStored

def storeInteger : Value → StoreValue
  | .integer n => .int64 n
  | .float x => .int64 x.truncate
  | .string s => ((readInteger s).map StoreValue.int64).getD .null
  | .null => .null
  | v => v.toStored

def storeFloat : Value → StoreValue
  | .float x => .double x
  | .integer n => .double (Double.ofInt n.toInt)
  | .string s => ((readFloat s).map StoreValue.double).getD .null
  | .null => .null
  | v => v.toStored

/-- Stores a value of a truth property; what has no truth becomes null. -/
def storeBoolean (v : Value) : StoreValue := ((truth? v).map StoreValue.boolean).getD .null

/-- Stores a value of a symbol property, as a text. -/
def storeSymbol : Value → StoreValue
  | .symbol s | .string s => .string s
  | v => v.toStored

/-- Stores a value of a date property, as the text of the date. -/
def storeDate : Value → StoreValue
  | .date d => .string d.text
  | .time t => .string t.date.text
  | .string s =>
    match Date.ofText? (trim s.toList) with
    | some d => .string d.text
    | none => .string s
  | v => v.toStored

/-- Stores a value of a time property. A date stands for its midnight. -/
def storeTime : Value → StoreValue
  | .time t => .dateTime t.toMillis
  | .date d => .dateTime (Time.ofDate d).toMillis
  | .string s =>
    match Time.ofText? (trim s.toList) with
    | some t => .dateTime t.toMillis
    | none => .string s
  | v => v.toStored

def toStore : Converter → Value → StoreValue
  | .string, v => storeString v
  | .integer, v => storeInteger v
  | .float, v => storeFloat v
  | .boolean, v => storeBoolean v
  | .symbol, v => storeSymbol v
  | .date, v => storeDate v
  | .time, v => storeTime v
  | .generic, v => v.toStored
  | .named _, v => v.toStored
  | .array inner, .array items => .array (items.map fun item => inner.toStore item)
  | .array _, v => v.toStored
  | .map inner, .map entries => .document (Entries.mapValues (fun v => inner.toStore v) entries)
  | .map _, v => v.toStored

example : toStore .integer (.string " 12 ") matches .int64 12 := by decide +kernel

example : toStore (.array .date) (.array [.string " 2009-1-3", .string "soon"]) matches
    .array [.string "2009-01-03", .string "soon"] := by
  decide +kernel

end DocQuery.Converter
