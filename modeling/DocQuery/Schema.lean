import DocQuery.Properties

/-!
# Schemas

A schema is what a scope knows of its model: its name and properties, the collection that its records come
from, what it makes of a stored document, and how its indexes are set up. What a record is, with which error
a model fails and what it keeps about its indexes is up to the kind of the model.
-/

namespace DocQuery

/-- Where documents come from: the key of a collection and its name. -/
structure Source where
  key : String
  name : String
deriving DecidableEq, Inhabited

/-- A kind of models. -/
structure ModelKind where
  Record : Type
  /-- Equality of records. -/
  same : Record → Record → Bool
  Failure : Type
  /-- The text of a failure. -/
  message : Failure → String
  /-- What a model keeps about its indexes. -/
  IndexState : Type

structure Schema (M : ModelKind) where
  /-- The key that tells the model from others, under which the state of its indexes is kept. -/
  key : String
  name : String
  properties : Properties
  source : Source
  /-- The record of a stored document, if it is one. -/
  record : Document → Except M.Failure M.Record
  /-- The state of its indexes before anything is done. -/
  indexes : M.IndexState
  /-- Whether setting up the indexes can be skipped. -/
  initialized : M.IndexState → Bool
  setUp : M.IndexState → Except M.Failure Unit × M.IndexState

end DocQuery
