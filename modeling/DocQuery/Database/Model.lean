import DocQuery.Schema

/-!
# Models of attributes

The records of these models are the attributes of the documents. A document is no record if a required field
is missing. Setting up the indexes is counted, and what else becomes of it is up to the policy of the model.
-/

namespace DocQuery

/-- What setting up the indexes of a model does. -/
inductive IndexPolicy where
  /-- It succeeds and is not needed again. -/
  | once
  /-- It succeeds but is needed again every time. -/
  | always
  /-- It fails. -/
  | failing
  /-- There is nothing to set up and to count, which is found out every time. -/
  | unmanaged
deriving DecidableEq, Inhabited

inductive ModelError where
  | missingField (name : String)
  | indexBuildFailed
deriving DecidableEq

def ModelError.message : ModelError → String
  | .missingField name => "record is missing " ++ name
  | .indexBuildFailed => "index build failed"

structure IndexState where
  initialized : Bool
  /-- The number of times they were set up. -/
  calls : Nat
deriving DecidableEq, Inhabited

def IndexPolicy.setUp (policy : IndexPolicy) (state : IndexState) : Except ModelError Unit × IndexState :=
  match policy with
  | .once => (.ok (), ⟨true, state.calls + 1⟩)
  | .always => (.ok (), { state with calls := state.calls + 1 })
  | .failing => (.error .indexBuildFailed, { state with calls := state.calls + 1 })
  | .unmanaged => (.ok (), state)

structure Model where
  /-- The key of the state of its indexes. -/
  key : String
  name : String
  properties : Properties
  source : Source
  /-- The stored fields without which a document is no record. -/
  required : List String
  indexes : IndexPolicy
deriving Inhabited

namespace Model

def record (m : Model) (d : Document) : Except ModelError Attributes :=
  match m.required.find? fun name => (d.get? name).isNone with
  | some name => .error (.missingField name)
  | none => .ok (m.properties.load d)

/-- The kind of the models whose records are attributes. -/
@[reducible] def kind : ModelKind where
  Record := Attributes
  same := Attributes.same
  Failure := ModelError
  message := ModelError.message
  IndexState := IndexState

def schema (m : Model) : Schema kind where
  key := m.key
  name := m.name
  properties := m.properties
  source := m.source
  record := m.record
  indexes := ⟨false, 0⟩
  initialized := IndexState.initialized
  setUp := m.indexes.setUp

end Model

end DocQuery
