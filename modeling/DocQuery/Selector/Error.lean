import DocQuery.StoreValue.Text

/-!
# Selectors that cannot be tested
-/

namespace DocQuery

inductive SelectorError where
  | unknownOperator (token : String)
  /-- An operator that takes a list was given something else. -/
  | notAnArray (token : String) (operand : StoreValue)
  /-- The number of items was not given as an integer. -/
  | badSize (operand : StoreValue)
  /-- The operand of a remainder test was not a divisor other than zero with a remainder. -/
  | badRemainder (operand : StoreValue)

def SelectorError.message : SelectorError → String
  | .unknownOperator token => "unknown operator " ++ token
  | .notAnArray token operand => token ++ " expects an array, got " ++ operand.text
  | .badSize operand => "$size expects an integer, got " ++ operand.text
  | .badRemainder operand => "$mod expects [divisor, remainder], got " ++ operand.text

end DocQuery
