import DocQuery.Backend
import DocQuery.Schema

/-!
# Worlds

What scopes run against: a store, the states of the indexes of models, and the calls made so far. Nothing
but a call is written into the list of calls, and nothing is ever taken from it.
-/

namespace DocQuery

inductive ExternalCall where
  /-- The indexes of the model of a key are set up. -/
  | setUp (model : String)
  /-- A request is sent to the collection of a key. -/
  | sent (key : String) (request : Request)

structure World (M : ModelKind) (B : Backend) where
  store : B.State
  /-- The states of the indexes of models, under their keys. -/
  indexes : Entries String M.IndexState
  calls : List ExternalCall

namespace World

variable {M : ModelKind} {B : Backend}

/-- A store to which no call was made yet. -/
def untouched (store : B.State) : World M B := ⟨store, [], []⟩

def find (w : World M B) (key : String) (selector options : Document) : Except B.Failure (Cursor B) × World M B :=
  let (answer, store) := B.find w.store key selector options
  (answer, { w with store := store, calls := w.calls ++ [.sent key ⟨.find, selector, options⟩] })

def count (w : World M B) (key : String) (selector options : Document) : Except B.Failure Nat × World M B :=
  let (answer, store) := B.count w.store key selector options
  (answer, { w with store := store, calls := w.calls ++ [.sent key ⟨.count, selector, options⟩] })

def indexState (w : World M B) (m : Schema M) : M.IndexState := (w.indexes.get? m.key).getD m.indexes

def setUpIndexes (w : World M B) (m : Schema M) : Except M.Failure Unit × World M B :=
  let (answer, state) := m.setUp (w.indexState m)
  (answer, { w with indexes := w.indexes.put m.key state, calls := w.calls ++ [.setUp m.key] })

end World

end DocQuery
