import DocQuery.StoreValue.Basic

/-!
# Backends

A backend is a kind of stores. A store has collections under keys and answers requests, which may change it:
a find request with the documents found, one after the other, and a count request with a number.
-/

namespace DocQuery

inductive RequestKind where
  | find
  | count
deriving DecidableEq

def RequestKind.name : RequestKind → String
  | find => "find"
  | count => "count"

structure Request where
  kind : RequestKind
  selector : Document
  options : Document

structure Backend where
  /-- The states of a store. -/
  State : Type
  Failure : Type
  /-- The text of a failure. -/
  message : Failure → String
  /-- The name of the collection of a key. -/
  name? : State → String → Option String
  /-- Answers a find request to the collection of a key. Getting a document that was found may fail. -/
  find : State → String → Document → Document → Except Failure (List (Except Failure Document)) × State
  /-- Answers a count request to the collection of a key. -/
  count : State → String → Document → Document → Except Failure Nat × State

/-- The documents that a find request gives, one after the other; getting one may fail. -/
abbrev Cursor (B : Backend) := List (Except B.Failure Document)

end DocQuery
