import DocQuery.Properties
import DocQuery.Query.Conditions
import DocQuery.Query.Option
import DocQuery.Query.SortTerm

/-!
# Compiled queries

Compiling criteria against the properties of a model gives the two documents that a store understands: a
selector, built from the conditions, and options, built from everything else. Field names are resolved
to stored names and operands are stored the way the values of their field are. Conditions that resolve
to one stored field share its place in the selector, and the last of them counts.
-/

namespace DocQuery

/-- What a query asks for. Every part may be absent. -/
structure Criteria where
  conditions : Option Conditions
  select : List String
  order : List SortTerm
  limit : Option Nat
  offset : Option Nat
deriving Inhabited

/-- Equality of criteria, with equality of native values in the conditions. -/
def Criteria.same (a b : Criteria) : Bool :=
  (match a.conditions, b.conditions with
    | some cs, some ds => cs.same ds
    | none, none => true
    | _, _ => false) &&
  a.select = b.select && a.order = b.order && a.limit = b.limit && a.offset = b.offset

/-- A query in the form that a store understands. -/
structure Query where
  selector : Document
  options : Document

namespace Query

/-- A count as a store value. Stores take signed counts, and a larger one is capped. -/
def countValue (n : Nat) : StoreValue := .int64 (Int64.ofNat (min n 0x7FFFFFFFFFFFFFFF))

/-- The operand of an operator as a store value. The operand of a list comparison is stored item by item,
and one that is no value of the field by its kind. -/
def operand (ps : Properties) (op : Operator) (v : Value) : StoreValue :=
  if op.comparator.takesLiteral then v.toStored
  else
    match v with
    | .array items =>
      if op.comparator.takesList then .array (items.map (ps.toStore op.field)) else ps.toStore op.field v
    | _ => ps.toStore op.field v

/-- What a condition asks of its field in a selector. -/
def constraint (ps : Properties) (subject : Subject) (v : Value) : Except CompileError StoreValue :=
  match subject with
  | .field name => .ok (ps.toStore name v)
  | .operator op => (op.fragment (operand ps op v)).map StoreValue.document

/-- The entry that a condition writes into a selector. -/
def selectorEntry (ps : Properties) (c : Subject × Value) : Except CompileError (String × StoreValue) :=
  (constraint ps c.1 c.2).map fun v => (ps.resolve c.1.fieldName, v)

/-- The selector for a set of conditions. -/
def selectorOf (ps : Properties) (cs : Conditions) : Except CompileError Document :=
  (cs.mapM (selectorEntry ps)).map Entries.ofList

/-- A field to sort by as a store value. -/
def sortValue (ps : Properties) (key : SortKey) : StoreValue :=
  .array [.string (ps.resolve key.field), .string key.direction.text]

/-- The options for a query with the given fields to sort by. An empty part is left out. -/
def optionsOf (ps : Properties) (c : Criteria) (keys : List SortKey) : Document :=
  (c.offset.map fun n => (QueryOption.skip.name, countValue n)).toList ++
    (c.limit.map fun n => (QueryOption.limit.name, countValue n)).toList ++
    (if c.select.isEmpty then [] else [(QueryOption.fields.name, .array (c.select.map .string))]) ++
    (if keys.isEmpty then [] else [(QueryOption.sort.name, .array (keys.map (sortValue ps)))])

/-- Compiles criteria. An operator that the store does not know is reported before a malformed order. -/
def compile (ps : Properties) (c : Criteria) : Except CompileError Query := do
  let selector ← selectorOf ps (c.conditions.getD [])
  let keys ← SortTerm.allSortKeys c.order
  return ⟨selector, optionsOf ps c keys⟩

end Query

end DocQuery
