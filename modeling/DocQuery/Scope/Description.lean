import DocQuery.Scope.Basic
import DocQuery.Value.Description

/-!
# Descriptions of scopes

The description of a scope names its model and its collection and tells its clauses and whether it is
loaded, for people to read. Everything is on one line, with named parts in braces, lists in brackets and
texts in quotes.
-/

namespace DocQuery

open Text

/-- The label of a comparison: its name with a capital letter. -/
def Comparison.label (c : Comparison) : String := c.name.capitalize

def Comparator.label : Comparator → String
  | known c => c.label
  | unrecognized _ => "Unrecognized"

def Comparator.describe : Comparator → String
  | known c => c.label
  | unrecognized token => labelled "Unrecognized" (quoted token)

def Subject.describe : Subject → String
  | field name => labelled "Field" (quoted name)
  | operator op =>
    labelled "Operator"
      (record "Operator" [("field", quoted op.field), ("comparator", op.comparator.describe)])

def Conditions.describe (cs : Conditions) : String :=
  record "Conditions"
    [("entries", bracketed (cs.map fun c => "(" ++ c.1.describe ++ ", " ++ c.2.describe ++ ")"))]

def Direction.describe (d : Direction) : String := d.text.capitalize

def SortTerm.describe : SortTerm → String
  | field name => labelled "Field" (quoted name)
  | directed name d => labelled "Directed" (quoted name ++ ", " ++ d.describe)
  | expression text => labelled "Expr" (quoted text)

def Criteria.describe (c : Criteria) : String :=
  let number (n : Nat) : String := String.ofList (digits n)
  record "FinderOptions"
    [("conditions", optional (c.conditions.map Conditions.describe)),
      ("select", bracketed (c.select.map quoted)),
      ("order", bracketed (c.order.map SortTerm.describe)),
      ("limit", optional (c.limit.map number)),
      ("offset", optional (c.offset.map number))]

def Scope.describe {M : ModelKind} (s : Scope M) : String :=
  record "Scope"
    [("model", quoted s.model.name), ("collection", quoted s.currentSource.name),
      ("options", s.criteria.describe), ("loaded", if s.isLoaded then "true" else "false")]

end DocQuery
