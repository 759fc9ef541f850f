import DocQuery.Backend
import DocQuery.Collection.Basic

/-!
# Connections

A collection is reached over a connection, which keeps a log of the requests sent over it. An unreachable
connection refuses every request, without the collection noticing, and a connection can lose the cursor over
the documents found at a given position.
-/

namespace DocQuery

inductive StorageError where
  | rejected (reason : StoreError)
  | connectionRefused
  | cursorLost (position : Nat)

def StorageError.message : StorageError → String
  | .rejected reason => reason.message
  | .connectionRefused => "connection refused"
  | .cursorLost position => "cursor lost at " ++ String.ofList (Text.digits position)

structure Connection where
  collection : Collection
  reachable : Bool
  /-- The position at which cursors are lost. -/
  breaksAt : Option Nat
  /-- The requests sent since the log was last taken. -/
  log : List Request

namespace Connection

def logged (c : Connection) (r : Request) : Connection := { c with log := c.log ++ [r] }

def cursorOver (c : Connection) (ds : List Document) : List (Except StorageError Document) :=
  ds.mapIdx fun i d => if c.breaksAt = some i then .error (.cursorLost i) else .ok d

def find (c : Connection) (selector options : Document) :
    Except StorageError (List (Except StorageError Document)) × Connection :=
  let c := c.logged ⟨.find, selector, options⟩
  if c.reachable then
    let (answer, collection) := c.collection.find selector options
    ((answer.mapError .rejected).map c.cursorOver, { c with collection := collection })
  else (.error .connectionRefused, c)

def count (c : Connection) (selector options : Document) : Except StorageError Nat × Connection :=
  let c := c.logged ⟨.count, selector, options⟩
  if c.reachable then
    let (answer, collection) := c.collection.count selector options
    (answer.mapError .rejected, { c with collection := collection })
  else (.error .connectionRefused, c)

end Connection

end DocQuery
