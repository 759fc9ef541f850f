import DocQuery.Calendar.TimeText
import DocQuery.StoreValue.Description
import DocQuery.Value.Basic

/-!
# Descriptions of values

The description of a native value tells its kind and its contents, for people to read. Texts are quoted,
floats are written as literals, and a store value that has no native counterpart is described as one.
-/

namespace DocQuery.Value

open Text

mutual

def describe : Value → String
  | .null => "Null"
  | .string s => labelled "String" (quoted s)
  | .integer n => labelled "Integer" (String.ofList (integerText n.toInt))
  | .float x => labelled "Float" (x.render .literal)
  | .boolean b => labelled "Boolean" (if b then "true" else "false")
  | .symbol s => labelled "Symbol" (quoted s)
  | .date d => labelled "Date" d.text
  | .time t => labelled "Time" (String.ofList t.localChars ++ "Z")
  | .array items => labelled "Array" (bracketed (describeItems items))
  | .map entries => labelled "Map" (braced (describeEntries entries))
  | .raw v => labelled "Raw" v.describe
termination_by structural v => v

def describeItems : List Value → List String
  | [] => []
  | v :: rest => describe v :: describeItems rest
termination_by structural vs => vs

/-- The descriptions of the entries of a map, each with its name. -/
def describeEntries : List (String × Value) → List String
  | [] => []
  | (k, v) :: rest => entry (quoted k) (describe v) :: describeEntries rest
termination_by structural es => es

end

end DocQuery.Value
