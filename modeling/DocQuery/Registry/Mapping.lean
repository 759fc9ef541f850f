import DocQuery.Query.Compile
import DocQuery.Registry.Basic

/-!
# Mapping through a registry

Loading, dumping and compiling with the converters that a registry keeps. Each use looks up the types it
meets, in the order in which it meets them, and leaves the registry that holds them. What is loaded,
dumped or compiled is the same as with the converters that the types ask for.
-/

namespace DocQuery.Registry

/-- Looks up the converter of a type, in a computation that carries the registry along. -/
def converterOf (type : PropertyType) : StateM Registry Converter := do
  let (found, r) := (← get).lookUp type
  set r
  return found.converter

def toStore (type : PropertyType) (v : Value) : StateM Registry StoreValue :=
  return (← converterOf type).toStore v

def fromStore (type : PropertyType) (v : StoreValue) : StateM Registry Value :=
  return (← converterOf type).fromStore v

/-! ### Records and documents -/

def loadField (ps : Properties) (field : String × StoreValue) : StateM Registry (String × Value) :=
  match ps.ofField? field.1 with
  | some p => return (p.name, ← fromStore p.type field.2)
  | none => return (field.1, Value.ofStored field.2)

def load (ps : Properties) (d : Document) : StateM Registry Attributes :=
  return Entries.sorted (← d.mapM (loadField ps))

def dumpProperty (a : Attributes) (p : Property) : StateM Registry (Option (String × StoreValue)) :=
  match a.get? p.name with
  | some v => return some (p.storedAs, ← toStore p.type v)
  | none => return none

def dump (ps : Properties) (a : Attributes) : StateM Registry Document :=
  return Entries.ofList
    ((← ps.declared.mapM (dumpProperty a)).filterMap id ++ (ps.undeclared a).mapValues Value.toStored)

/-! ### Queries -/

def toStoreField (ps : Properties) (name : String) (v : Value) : StateM Registry StoreValue :=
  match ps.type? name with
  | some type => toStore type v
  | none => return v.toStored

def operand (ps : Properties) (op : Operator) (v : Value) : StateM Registry StoreValue :=
  if op.comparator.takesLiteral then return v.toStored
  else
    match v with
    | .array items =>
      if op.comparator.takesList then return .array (← items.mapM (toStoreField ps op.field))
      else toStoreField ps op.field v
    | _ => toStoreField ps op.field v

def selectorEntry (ps : Properties) (c : Subject × Value) :
    StateM Registry (Except CompileError (String × StoreValue)) := do
  let constraint ← match c.1 with
    | .field name => pure (Except.ok (← toStoreField ps name c.2))
    | .operator op => pure ((op.fragment (← operand ps op c.2)).map StoreValue.document)
  return constraint.map fun v => (ps.resolve c.1.fieldName, v)

/-- The entries that conditions write into a selector, up to the first that cannot be compiled. -/
def selectorEntries (ps : Properties) :
    Conditions → StateM Registry (Except CompileError (List (String × StoreValue)))
  | [] => return .ok []
  | c :: cs => do
    match ← selectorEntry ps c with
    | .error e => return .error e
    | .ok entry => return (← selectorEntries ps cs).map (entry :: ·)

def compile (ps : Properties) (c : Criteria) : StateM Registry (Except CompileError Query) := do
  let entries ← selectorEntries ps (c.conditions.getD [])
  return do
    let selector := Entries.ofList (← entries)
    let keys ← SortTerm.allSortKeys c.order
    return ⟨selector, Query.optionsOf ps c keys⟩

end DocQuery.Registry
