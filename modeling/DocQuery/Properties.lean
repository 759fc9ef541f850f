import DocQuery.Converter.Load
import DocQuery.Converter.Store

/-!
# Properties

A model declares its properties in order. Each has a name, a type and the name of the field that stores
it; the identity property `id` is always there and is stored as `_id` unless it is declared anew.
Loading turns a stored document into a record and dumping a record into a document. Fields and
attributes that no property declares pass through under their own names, converted by their kind.
-/

namespace DocQuery

structure Property where
  name : String
  type : PropertyType
  /-- The name of the field that stores the property. -/
  storedAs : String
deriving DecidableEq

/-- The logical name of the identity property. -/
def identityName : String := "id"

/-- The declared properties of a model. -/
structure Properties where
  declared : List Property
deriving DecidableEq

namespace Properties

/-- The properties of a model that declares none: the identity alone. -/
def initial : Properties := ⟨[⟨identityName, .any, identityField⟩]⟩

instance : Inhabited Properties := ⟨initial⟩

/-- Declares a property in a list of them: in place of the one of its name, or at the end. -/
def declareIn (new : Property) : List Property → List Property
  | [] => [new]
  | p :: rest => if p.name = new.name then new :: rest else p :: declareIn new rest

def declare (ps : Properties) (new : Property) : Properties := ⟨declareIn new ps.declared⟩

/-- The properties that declaring a list of them in order leaves. -/
def ofList (ps : List Property) : Properties := ps.foldl declare initial

def get? (ps : Properties) (name : String) : Option Property := ps.declared.find? (·.name = name)

/-- The property that a stored field holds. -/
def ofField? (ps : Properties) (field : String) : Option Property :=
  ps.declared.find? (·.storedAs = field)

/-- The stored name of a logical field; an undeclared name stands for itself. -/
def resolve (ps : Properties) (name : String) : String := ((ps.get? name).map (·.storedAs)).getD name

/-- The declared type of a logical field. -/
def type? (ps : Properties) (name : String) : Option PropertyType := (ps.get? name).map (·.type)

def toStore (ps : Properties) (name : String) (v : Value) : StoreValue :=
  match ps.type? name with
  | some type => type.converter.toStore v
  | none => v.toStored

/-! ### Records and documents -/

/-- The attribute that a stored field becomes. -/
def loadField (ps : Properties) (field : String) (v : StoreValue) : String × Value :=
  match ps.ofField? field with
  | some p => (p.name, p.type.converter.fromStore v)
  | none => (field, Value.ofStored v)

def load (ps : Properties) (d : Document) : Attributes :=
  Entries.sorted (d.map fun field => ps.loadField field.1 field.2)

/-- The stored field of a declared property, if the record has a value for it. -/
def dumpProperty (a : Attributes) (p : Property) : Option (String × StoreValue) :=
  (a.get? p.name).map fun v => (p.storedAs, p.type.converter.toStore v)

/-- The attributes that no property declares. -/
def undeclared (ps : Properties) (a : Attributes) : Attributes := a.filter fun e => (ps.get? e.1).isNone

/-- The fields that dumping a record writes, in order: the declared properties first, in the order of
their declaration, and then the other attributes in the order of their names. -/
def dumpFields (ps : Properties) (a : Attributes) : List (String × StoreValue) :=
  ps.declared.filterMap (dumpProperty a) ++ (ps.undeclared a).mapValues Value.toStored

def dump (ps : Properties) (a : Attributes) : Document := Entries.ofList (ps.dumpFields a)

end Properties

end DocQuery
