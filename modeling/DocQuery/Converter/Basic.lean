import DocQuery.PropertyType

/-!
# Converters

A converter says how the values of a property are stored and read back. Each property type asks for one;
those of arrays and maps are built from the converter of the inner type.
-/

namespace DocQuery

/-- A way to store values of a property and to read them back. -/
inductive Converter where
  | string
  | integer
  | float
  | boolean
  | symbol
  | date
  | time
  | generic
  /-- The generic conversion, under the name of a custom type. -/
  | named (typeName : String)
  /-- The inner conversion on every item of an array. -/
  | array (inner : Converter)
  /-- The inner conversion on every value of a map. -/
  | map (inner : Converter)
deriving DecidableEq, Inhabited

def PropertyType.converter : PropertyType → Converter
  | .string => .string
  | .integer => .integer
  | .float => .float
  | .boolean => .boolean
  | .symbol => .symbol
  | .date => .date
  | .time => .time
  | .array inner => .array inner.converter
  | .map inner => .map inner.converter
  | .any => .generic
  | .custom name => .named name

end DocQuery
