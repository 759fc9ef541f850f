import DocQuery.Collection.History
import DocQuery.Database.Connection
import DocQuery.Database.Model

/-!
# Databases

A database is a store in memory. It holds the connections to its collections and a supply of identities, of
which it keeps the number issued so far. Requests go to a connection by its key and change nothing else.
-/

namespace DocQuery

structure Database where
  connections : Entries String Connection
  /-- The identities for documents that come without one, in turn. -/
  identities : Nat → ObjectId
  /-- The number of identities issued. -/
  issued : Nat

namespace Database

def empty (identities : Nat → ObjectId := .issued) : Database := ⟨[], identities, 0⟩

def withConnection (db : Database) (key : String) (c : Connection) : Database :=
  { db with connections := db.connections.put key c }

/-- The source that the connection of a key stands for. -/
def source? (db : Database) (key : String) : Option Source :=
  (db.connections.get? key).map fun c => ⟨key, c.collection.name⟩

/-! ### Requests -/

/-- Sends a find request to the connection of a key; without a connection it is refused. -/
def find (db : Database) (key : String) (selector options : Document) :
    Except StorageError (List (Except StorageError Document)) × Database :=
  match db.connections.get? key with
  | some c => ((c.find selector options).1, db.withConnection key (c.find selector options).2)
  | none => (.error .connectionRefused, db)

/-- Sends a count request to the connection of a key; without a connection it is refused. -/
def count (db : Database) (key : String) (selector options : Document) :
    Except StorageError Nat × Database :=
  match db.connections.get? key with
  | some c => ((c.count selector options).1, db.withConnection key (c.count selector options).2)
  | none => (.error .connectionRefused, db)

@[reducible] def backend : Backend where
  State := Database
  Failure := StorageError
  message := StorageError.message
  name? db key := (db.source? key).map (·.name)
  find := Database.find
  count := Database.count

/-! ### Work on collections -/

/-- Inserts a document into the collection of a connection. Gives its identity. -/
def insert (db : Database) (key : String) (c : Connection) (d : Document) : StoreValue × Database :=
  let (id, shelf) := Shelf.insert ⟨c.collection, db.identities, db.issued⟩ d
  (id, { db.withConnection key { c with collection := shelf.collection } with issued := shelf.issued })

def remove (db : Database) (key : String) (c : Connection) (selector : Document) :
    Except StoreError Nat × Database :=
  let (answer, collection) := c.collection.remove selector
  (answer, db.withConnection key { c with collection := collection })

/-- Inserts documents into the collection of a key, if there is a connection to it. -/
def fill (key : String) : Database → List Document → Database
  | db, [] => db
  | db, d :: rest =>
    match db.connections.get? key with
    | some c => fill key (db.insert key c d).2 rest
    | none => db

/-- Connects a collection of the given name and documents under a key. -/
def connect (db : Database) (source : Source) (reachable : Bool) (breaksAt : Option Nat)
    (documents : List Document) : Database :=
  fill source.key
    (db.withConnection source.key ⟨Collection.empty source.name, reachable, breaksAt, []⟩) documents

end Database

end DocQuery
