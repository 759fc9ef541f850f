import DocQuery.Collection.Basic

/-!
# The history of a collection

A collection is worked on step by step. A shelf is a collection together with the identities that it issues,
one after the other, and running steps on a shelf gives their answers in order.
-/

namespace DocQuery

/-- A collection with a supply of identities and the number of those issued so far. -/
structure Shelf where
  collection : Collection
  /-- The identities for documents that come without one, in turn. -/
  identities : Nat → ObjectId
  issued : Nat
deriving Inhabited

inductive ShelfStep where
  | insert (d : Document)
  | insertMany (ds : List Document)
  | remove (selector : Document)
  | find (selector options : Document)
  | count (selector options : Document)
  | name

inductive ShelfAnswer where
  | identity (id : StoreValue)
  | identities (ids : List StoreValue)
  | number (n : Except StoreError Nat)
  | documents (ds : Except StoreError (List Document))
  | name (s : String)

namespace Shelf

def empty (name : String) (identities : Nat → ObjectId := .issued) : Shelf := ⟨Collection.empty name, identities, 0⟩

/-- The identity that the next document without one gets. -/
def fresh (s : Shelf) : StoreValue := .objectId (s.identities s.issued)

/-- Inserts a document. Gives its identity. -/
def insert (s : Shelf) (d : Document) : StoreValue × Shelf :=
  let (id, collection) := s.collection.insert s.fresh d
  (id, { s with
    collection := collection
    issued := if (d.get? identityField).isSome then s.issued else s.issued + 1 })

/-- Inserts documents in order. Gives their identities. -/
def insertMany : Shelf → List Document → List StoreValue × Shelf
  | s, [] => ([], s)
  | s, d :: rest =>
    let (id, s) := s.insert d
    let (ids, s) := s.insertMany rest
    (id :: ids, s)

def step (s : Shelf) : ShelfStep → ShelfAnswer × Shelf
  | .insert d =>
    let (id, s) := s.insert d
    (.identity id, s)
  | .insertMany ds =>
    let (ids, s) := s.insertMany ds
    (.identities ids, s)
  | .remove selector =>
    let (answer, collection) := s.collection.remove selector
    (.number answer, { s with collection := collection })
  | .find selector options =>
    let (answer, collection) := s.collection.find selector options
    (.documents answer, { s with collection := collection })
  | .count selector options =>
    let (answer, collection) := s.collection.count selector options
    (.number answer, { s with collection := collection })
  | .name => (.name s.collection.name, s)

/-- Works steps in order. Gives the answer of each with the shelf that it leaves. -/
def run : Shelf → List ShelfStep → List (ShelfAnswer × Shelf)
  | _, [] => []
  | s, step :: rest =>
    let outcome := s.step step
    outcome :: outcome.2.run rest

def after : Shelf → List ShelfStep → Shelf
  | s, [] => s
  | s, step :: rest => (s.step step).2.after rest

end Shelf

end DocQuery
