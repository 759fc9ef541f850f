/-!
# Property types

Each property of a model has a declared type. Arrays and maps have an inner type, to any depth, and a
custom type is known by its name only.
-/

namespace DocQuery

inductive PropertyType where
  | string
  | integer
  | float
  | boolean
  | symbol
  | date
  | time
  | array (inner : PropertyType)
  | map (inner : PropertyType)
  /-- Any value, stored as it is. -/
  | any
  /-- A type known by name only. -/
  | custom (name : String)
deriving DecidableEq, Inhabited

def PropertyType.text : PropertyType → String
  | .string => "String"
  | .integer => "Integer"
  | .float => "Float"
  | .boolean => "Boolean"
  | .symbol => "Symbol"
  | .date => "Date"
  | .time => "Time"
  | .array inner => "Array<" ++ inner.text ++ ">"
  | .map inner => "Map<" ++ inner.text ++ ">"
  | .any => "Any"
  | .custom name => name

example : (PropertyType.array (.map .date)).text = "Array<Map<Date>>" := by decide +kernel

end DocQuery
